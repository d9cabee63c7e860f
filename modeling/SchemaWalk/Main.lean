import SchemaWalk.Settings.Files
import SchemaWalk.Shell.Session

/-! # The shell as a program

Reads the settings and the saved walk, runs one command, and writes the walk back if the
command changed it. All decisions are made elsewhere; here is only what touches the disk. -/

namespace SchemaWalk.Shell

open Files

def currentEnvironment : IO Environment :=
  return ⟨← IO.getEnv "XDG_CONFIG_HOME", ← IO.getEnv "XDG_STATE_HOME", ← IO.getEnv "HOME",
    ← IO.getEnv "TMPDIR"⟩

def readOnDisk (path : String) : IO (Except FileTree.ReadFault String) := do
  try
    return .ok (← IO.FS.readFile path)
  catch
    | .noFileOrDirectory .. => return .error .missing
    | _ => return .error .unreadable

def performOnDisk : FileAction → IO Unit
  | .createDirectories path => if path.isEmpty then pure () else IO.FS.createDirAll path
  | .startFile path => IO.FS.writeBinFile path .empty
  | .ensureFile path => do let _ ← IO.FS.Handle.mk path .append
  | .append path content => do (← IO.FS.Handle.mk path .append).write content
  | .flush path => do (← IO.FS.Handle.mk path .append).flush
  | .rename source target => IO.FS.rename source target

def loadSettings (env : Environment) : IO (Option Settings) :=
  return match ← readOnDisk env.settingsFile with
    | .ok text => Settings.parse? text
    | .error .missing => some .default
    | .error .unreadable => none

/-- Writes the walk to its file. A walk that cannot be written is lost without a word. -/
def writeWalk (dir text : String) : IO Unit := do
  try (FileStore.writePlan dir walkKey text).forM performOnDisk catch _ => pure ()

def storeHolding (stored : Option String) : Memory :=
  ⟨.ofList (stored.toList.map fun text => (walkKey, text)), true, true⟩

def runOnDisk (invocation : Invocation) : IO UInt32 := do
  let env ← currentEnvironment
  let loaded ← loadSettings env
  if loaded.isNone then
    IO.eprintln ("[Graph-Walk] could not read settings from " ++ env.settingsDir)
  let settings := loaded.getD .default
  let dir := invocation.storeDir.getD (settings.storageDir env)
  let stored := (← readOnDisk (FileStore.dataFile dir walkKey)).toOption
  let (answer, saved) := run settings.queryBuilder (.load (storeHolding stored))
    invocation.command
  let written := saved.store.entries.get? walkKey
  if written ≠ stored then written.forM (writeWalk dir)
  match answer with
  | .ok lines =>
    lines.forM (IO.println ·)
    return 0
  | .error message =>
    IO.eprintln message
    return 1

end SchemaWalk.Shell

open SchemaWalk.Shell

def main (arguments : List String) : IO UInt32 := do
  match Invocation.ofArguments arguments with
  | .ok invocation => runOnDisk invocation
  | .error .help =>
    IO.println "walksh [--store-dir DIR] show|push|pop|clear|queries|overview"
    return 0
  | .error .misuse =>
    IO.eprintln "walksh: wrong arguments; try --help"
    return 2
