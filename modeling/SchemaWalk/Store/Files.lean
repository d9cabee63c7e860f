import SchemaWalk.Files.Action
import SchemaWalk.Store

/-! # File stores

One file for each key. A write goes to a temporary file beside it, which then takes the
place of the old file, so that a reader never sees half a value. -/

namespace SchemaWalk

open Files

structure FileStore where
  dir : String
  tree : FileTree

namespace FileStore

def isKeyChar (c : Char) : Bool := c.isAlphanum || c == '_' || c == '-'

/-- Keys are part of file names: ASCII letters, digits, underscores and hyphens, at least
one. -/
def isKey (key : String) : Bool := !key.isEmpty && key.toList.all isKeyChar

def dataFile (dir key : String) : String := join dir (key ++ ".ron")

/-- A key has no dot, so this is no data file of any key. -/
def temporaryFile (dir key : String) : String := join dir (key ++ ".ron.tmp")

def writePlan (dir key value : String) : List FileAction :=
  [.createDirectories dir,
    .startFile (temporaryFile dir key),
    .append (temporaryFile dir key) value.toUTF8,
    .flush (temporaryFile dir key),
    .rename (temporaryFile dir key) (dataFile dir key)]

def get (s : FileStore) (key : String) : Except StoreError (Option String) :=
  if !isKey key then .error (.invalidKey key)
  else match s.tree.readText (dataFile s.dir key) with
    | .ok text => .ok (some text)
    | .error .missing => .ok none
    | .error .unreadable => .error .unavailable

def set (s : FileStore) (key value : String) : Except StoreError Unit × FileStore :=
  if !isKey key then (.error (.invalidKey key), s)
  else
    let attempt := s.tree.performAll (writePlan s.dir key value)
    (if attempt.succeeded then .ok () else .error .unavailable, { s with tree := attempt.tree })

instance : KeyValueStore FileStore := ⟨get, set⟩

end FileStore

end SchemaWalk
