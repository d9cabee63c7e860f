import SchemaWalk.Table

/-! # Paths and file trees

A path is a text with slashes. Its route is the list of names to follow; an absolute path
starts at the root, which stands in its route as a slash. A dot stays where it is, and two
dots lead back.

A tree has directories and files by their place. A place is a route without detours; routes are
followed from directory to directory. -/

namespace SchemaWalk.Files

abbrev Route := List String

def isAbsolute (path : String) : Bool := path.toList.head? == some '/'

def endsInSlash (path : String) : Bool := path.toList.getLast? == some '/'

/-- A part below a base. An absolute part stands for itself, and so does a part below an
empty base; one slash separates them otherwise. -/
def join (base part : String) : String :=
  if isAbsolute part || base.isEmpty then part
  else if endsInSlash base then base ++ part
  else base ++ "/" ++ part

def joinAll (base : String) (parts : List String) : String := parts.foldl join base

def splitSlashes : List Char → List (List Char)
  | [] => [[]]
  | c :: rest =>
    if c = '/' then [] :: splitSlashes rest
    else match splitSlashes rest with
      | [] => [[c]]
      | name :: names => (c :: name) :: names

def route (path : String) : Route :=
  let names := ((splitSlashes path.toList).filter (· ≠ [])).map String.ofList
  if isAbsolute path then "/" :: names else names

example : route "a//b/./c/" = ["a", "b", ".", "c"] := by decide +kernel
example : route "/a/.." = ["/", "a", ".."] := by decide +kernel
example : join "a/" "b" = "a/b" ∧ join "" "b" = "b" ∧ join "a" "/b" = "/b" := by decide +kernel

/-! ## Trees -/

inductive Entry where
  | directory
  | file (content : ByteArray)

def Entry.isDirectory : Entry → Bool
  | directory => true
  | file _ => false

/-- The root and the working directory are always there. Where a limit is missing, names and
paths may be of any length. -/
structure FileTree where
  entries : Table Route Entry
  nameLimit : Option Nat
  pathLimit : Option Nat

namespace FileTree

def empty : FileTree := ⟨∅, none, none⟩

instance : Inhabited FileTree := ⟨empty⟩

def allows (t : FileTree) (name : String) : Bool :=
  t.nameLimit.all (fun limit => name.utf8ByteSize ≤ limit)

/-- Paths that can be looked up at all; no part of any other is. -/
def accepts (t : FileTree) (path : String) : Bool :=
  !path.toList.contains '\x00' && t.pathLimit.all (fun limit => path.utf8ByteSize ≤ limit)

def at? (t : FileTree) (place : Route) : Option Entry :=
  if place = [] ∨ place = ["/"] then some .directory else t.entries.get? place

def isDirectory (t : FileTree) (place : Route) : Bool := (t.at? place).any Entry.isDirectory

def put (t : FileTree) (place : Route) (e : Entry) : FileTree :=
  { t with entries := t.entries.insert place e }

theorem at?_put_self {t : FileTree} {place : Route} (h : place ≠ []) (hr : place ≠ ["/"])
    (e : Entry) : (t.put place e).at? place = some e := by
  simp [at?, put, h, hr]

theorem at?_put_of_ne {t : FileTree} {place other : Route} (h : other ≠ place) (e : Entry) :
    (t.put place e).at? other = t.at? other := by
  simp only [at?, put, Table.get?_insert_of_ne t.entries h]

def parent (place : Route) : Route := if place = ["/"] then place else place.dropLast

/-- Where a route leads from a place. Every name on the way is looked up in an existing
directory; what it names last need not exist. -/
def follow (t : FileTree) (place : Route) : Route → Option Route
  | [] => some place
  | name :: rest =>
    if !t.isDirectory place then none
    else if name = "." then t.follow place rest
    else if name = ".." then t.follow (parent place) rest
    else if t.allows name then t.follow (place ++ [name]) rest
    else none

/-- The place that a path leads to. A slash at the end leads into a directory, as a dot does. -/
def resolve (t : FileTree) (path : String) : Option Route :=
  if t.accepts path then t.follow [] (route path ++ if endsInSlash path then ["."] else [])
  else none

def lookup (t : FileTree) (path : String) : Option Entry := (t.resolve path).bind t.at?

inductive ReadFault where
  | missing
  | unreadable
  deriving DecidableEq, Repr

def readText (t : FileTree) (path : String) : Except ReadFault String :=
  match t.lookup path with
  | none => .error .missing
  | some .directory => .error .unreadable
  | some (.file content) =>
    match String.fromUTF8? content with
    | some text => .ok text
    | none => .error .unreadable

def listed (base : Route) (e : Route × Entry) : Option String :=
  if base.isPrefixOf e.1 ∧ base ≠ e.1 then
    let path := "/".intercalate (e.1.drop base.length)
    some (if e.2.isDirectory then path ++ "/" else path)
  else none

def listing (t : FileTree) (path : String) : List String :=
  match t.resolve path with
  | some base => (t.entries.entries.filterMap (listed base)).mergeSort (fun a b => a ≤ b)
  | none => []

end FileTree

end SchemaWalk.Files
