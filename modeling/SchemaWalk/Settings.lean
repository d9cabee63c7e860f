import SchemaWalk.Cypher.Query
import SchemaWalk.Files.Tree

/-! # Settings

What a user can set, and the directories that follow from it and from the environment. -/

namespace SchemaWalk

open Files

structure Settings where
  storageOverride : Option String
  queryLogOverride : Option String
  queryLogEnabled : Bool
  /-- Milliseconds. -/
  walkTimeout : UInt64
  overviewTimeout : UInt64
  deriving DecidableEq, Repr

structure Environment where
  configHome : Option String
  stateHome : Option String
  home : Option String
  temporary : Option String
  deriving DecidableEq, Repr

namespace Environment

def settingsDir (env : Environment) : String :=
  match env.configHome with
  | some dir => join dir "Graph-Walk"
  | none => joinAll (env.home.getD "~") [".config", "Graph-Walk"]

def settingsFile (env : Environment) : String := join env.settingsDir "settings.json"

def stateDir (env : Environment) : String :=
  match env.stateHome, env.home with
  | some dir, _ => join dir "graph-walk"
  | none, some dir => joinAll dir [".local", "state", "graph-walk"]
  | none, none => "/tmp/Graph-Walk"

def queryLogDir (env : Environment) : String :=
  joinAll (env.temporary.getD "/tmp") ["Graph-Walk", "query-logs"]

end Environment

namespace Settings

def default : Settings := ⟨none, none, false, 30000, 3000⟩

instance : Inhabited Settings := ⟨default⟩

def storageDir (s : Settings) (env : Environment) : String := s.storageOverride.getD env.stateDir

/-- Nothing is logged unless it is enabled. -/
def queryLogDir (s : Settings) (env : Environment) : Option String :=
  if s.queryLogEnabled then some (s.queryLogOverride.getD env.queryLogDir) else none

def queryBuilder (s : Settings) : QueryBuilder := ⟨s.walkTimeout.toNat, s.overviewTimeout.toNat⟩

end Settings

end SchemaWalk
