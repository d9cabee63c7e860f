import SchemaWalk.SavedWalk
import SchemaWalk.Settings.Files
import SchemaWalk.Shell.Invocation
import SchemaWalk.Text.Escape

/-! # Shell sessions

The shell edits the saved walk and shows the queries that the stepper would send. It never
asks a database. A command line is run against an environment and the files in it. -/

namespace SchemaWalk.Shell

open Files

abbrev Answer := Except String (List String)

/-! ## Filters -/

def filterOf (raw : String) : Except String PropertyFilter :=
  match splitFirst '=' raw with
  | none => .error ("expected KEY=VALUE, got '" ++ raw ++ "'")
  | some (name, value) =>
    (PropertyFilter.create (Text.trim name) (Text.trim value)).mapError WalkError.message

def filtersOf : List String → Except String (List PropertyFilter)
  | [] => .ok []
  | raw :: rest => do
    let f ← filterOf raw
    return f :: (← filtersOf rest)

/-! ## What is shown -/

def queryLines (q : Query) : List String :=
  [q.kind.title ++ " (timeout " ++ toString q.timeout ++ " ms):", "  " ++ q.text]

def column (n : Nat) : String :=
  let digits := toString n
  "".pushn ' ' (3 - digits.length) ++ digits

def stepLine (index : Nat) (s : Step) : String := column index ++ "  " ++ s.render

def stepLines (w : Walk) : List String :=
  if w.isEmpty then ["(empty walk)"] else w.steps.mapIdx stepLine

def lengthLine (w : Walk) : String := "walk now has " ++ toString w.length ++ " step(s)"

/-! ## Commands -/

/-- The step that a push commits. Filters are looked at before label and type. -/
def pushedStep (label typeName : String) (inbound : Bool)
    (nodeFilters relationshipFilters : List String) : Except String Step := do
  let nodeFilters ← filtersOf nodeFilters
  let relationshipFilters ← filtersOf relationshipFilters
  let origin ← (NodePick.create label nodeFilters).mapError WalkError.message
  let relationship ← (RelationshipPick.create typeName relationshipFilters).mapError
    WalkError.message
  return ⟨origin, relationship, if inbound then .inbound else .outbound⟩

def candidateOf (label : String) (filters : List PropertyFilter) : Candidate :=
  filters.foldl Candidate.withFilter (.ofLabel label)

def focalQueries (b : QueryBuilder) (w : Walk) (c : Candidate) (property : Option String) :
    List Query :=
  [b.adjacentRelationships w c, b.propertyKeys w c,
    property.bind (b.propertyValues w c)].filterMap id

def run {σ : Type} [KeyValueStore σ] (b : QueryBuilder) (s : SavedWalk σ) :
    Command → Answer × SavedWalk σ
  | .show => (.ok (stepLines s.walk ++ queryLines (b.reachableLabels s.walk)), s)
  | .push label typeName inbound nodeFilters relationshipFilters =>
    match pushedStep label typeName inbound nodeFilters relationshipFilters with
    | .error message => (.error message, s)
    | .ok step => (.ok [lengthLine (s.append step).walk], s.append step)
  | .pop index => (.ok [lengthLine (s.truncate index).walk], s.truncate index)
  | .clear => (.ok ["walk cleared"], s.clear)
  | .queries label filters property =>
    match filtersOf filters with
    | .error message => (.error message, s)
    | .ok filters =>
      (.ok ((focalQueries b s.walk (candidateOf label filters) property).flatMap queryLines), s)
  | .overview => (.ok (queryLines b.allLabels ++ queryLines b.allRelationshipTypes), s)

/-! ## Command lines -/

structure Outcome where
  status : Nat
  output : List String
  message : Option String
  /-- The settings could not be read, so the default ones were taken. -/
  settingsIgnored : Bool
  tree : FileTree

def storeOf (invocation : Invocation) (settings : Settings) (env : Environment) (t : FileTree) :
    FileStore :=
  match invocation.storeDir with
  | some dir => ⟨dir, t⟩
  | none => settings.fileStore env t

def runInvocation (invocation : Invocation) (env : Environment) (t : FileTree) : Outcome :=
  let loaded := Settings.load env t
  let settings := loaded.getD .default
  let (answer, saved) := run settings.queryBuilder
    (.load (storeOf invocation settings env t)) invocation.command
  match answer with
  | .ok lines => ⟨0, lines, none, loaded.isNone, saved.store.tree⟩
  | .error message => ⟨1, [], some message, loaded.isNone, saved.store.tree⟩

/-- A misused command line changes nothing and does not look at the settings. -/
def runArguments (arguments : List String) (env : Environment) (t : FileTree) : Outcome :=
  match Invocation.ofArguments arguments with
  | .ok invocation => runInvocation invocation env t
  | .error .help => ⟨0, [], none, false, t⟩
  | .error .misuse => ⟨2, [], none, false, t⟩

end SchemaWalk.Shell
