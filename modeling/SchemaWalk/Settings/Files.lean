import SchemaWalk.Files.Action
import SchemaWalk.Json.Printer
import SchemaWalk.Json.Reader
import SchemaWalk.Settings
import SchemaWalk.Store.Files

/-! # Settings in a file

An object with a member for each field, written in full. When read, members may come in any
order and be missing, members of other names are passed over, and none may come twice. A
list of values, in the order of the fields, is read too. -/

namespace SchemaWalk

open Files

namespace Settings

inductive Field where
  | storageOverride
  | queryLogOverride
  | queryLogEnabled
  | walkTimeout
  | overviewTimeout
  deriving DecidableEq, Repr

namespace Field

def key : Field → String
  | storageOverride => "storage_override"
  | queryLogOverride => "query_log_override"
  | queryLogEnabled => "query_log_enabled"
  | walkTimeout => "walk_timeout_ms"
  | overviewTimeout => "overview_timeout_ms"

def all : List Field :=
  [storageOverride, queryLogOverride, queryLogEnabled, walkTimeout, overviewTimeout]

def ofKey? (k : String) : Option Field := all.find? (fun f => f.key = k)

theorem ofKey?_key (f : Field) : ofKey? f.key = some f := by
  cases f <;> decide

end Field

/-! ## Writing -/

def pathJson : Option String → Json
  | some path => .string path
  | none => .null

def timeJson (t : UInt64) : Json :=
  .number (.integer t.toNat (by have := t.toNat_lt; omega))

def get (s : Settings) : Field → Json
  | .storageOverride => pathJson s.storageOverride
  | .queryLogOverride => pathJson s.queryLogOverride
  | .queryLogEnabled => .bool s.queryLogEnabled
  | .walkTimeout => timeJson s.walkTimeout
  | .overviewTimeout => timeJson s.overviewTimeout

def toJson (s : Settings) : Json := .object (Field.all.map fun f => (f.key, s.get f))

def render (s : Settings) : String := s.toJson.indented 0

/-! ## Reading -/

def path? : Json → Option (Option String)
  | .string path => some (some path)
  | .null => some none
  | _ => none

def flag? : Json → Option Bool
  | .bool value => some value
  | _ => none

def time? (j : Json) : Option UInt64 := j.toNat?.map UInt64.ofNat

/-- Only the two paths may be null. -/
def set (s : Settings) (value : Json) : Field → Option Settings
  | .storageOverride => (path? value).map fun x => { s with storageOverride := x }
  | .queryLogOverride => (path? value).map fun x => { s with queryLogOverride := x }
  | .queryLogEnabled => (flag? value).map fun x => { s with queryLogEnabled := x }
  | .walkTimeout => (time? value).map fun x => { s with walkTimeout := x }
  | .overviewTimeout => (time? value).map fun x => { s with overviewTimeout := x }

def setAll (s : Settings) : List (Field × Json) → Option Settings
  | [] => some s
  | (f, value) :: rest => (s.set value f).bind fun s => s.setAll rest

def readFieldValue : Reader Json := Json.readScalar Json.builder

/-- A member of a known field, or of another name and then of any shape. -/
def readMember : Reader (Option (Field × Json)) := fun cs =>
  (Json.readMember (fun cs => (Json.stringWord cs).map fun (k, rest) => (Field.ofKey? k, rest))
    (fun
      | some f => fun cs => (readFieldValue cs).map fun (x, rest) => (some (f, x), rest)
      | none => fun cs => (Json.skip cs).map fun (_, rest) => (none, rest)) cs).map
    fun (m, rest) => (m.2, rest)

def ofMembers (members : List (Field × Json)) : Option Settings :=
  if (members.map (·.1)).Nodup then default.setAll members else none

def ofValues (values : List Json) : Option Settings :=
  if values.length ≤ Field.all.length then default.setAll (Field.all.zip values) else none

def read : Reader (Option Settings)
  | '\x7b' :: rest =>
    (Json.readEnclosed readMember '\x7d' rest).map fun (ms, rest) =>
      (ofMembers (ms.filterMap id), rest)
  | '[' :: rest =>
    (Json.readEnclosed readFieldValue ']' rest).map fun (xs, rest) => (ofValues xs, rest)
  | _ => none

def parse? (text : String) : Option Settings := (Json.alone read text).join

/-! ## Files -/

/-- The settings that are saved: the default when there is no file, nothing when there is one
that cannot be read. -/
def load (env : Environment) (t : FileTree) : Option Settings :=
  match t.readText env.settingsFile with
  | .ok text => parse? text
  | .error .missing => some default
  | .error .unreadable => none

def savePlan (s : Settings) (env : Environment) : List FileAction :=
  [.createDirectories env.settingsDir,
    .startFile env.settingsFile,
    .append env.settingsFile s.render.toUTF8]

def save (s : Settings) (env : Environment) (t : FileTree) : Attempt :=
  t.performAll (s.savePlan env)

def fileStore (s : Settings) (env : Environment) (t : FileTree) : FileStore :=
  ⟨s.storageDir env, t⟩

end Settings

end SchemaWalk
