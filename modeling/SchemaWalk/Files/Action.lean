import SchemaWalk.Files.Tree

/-! # File actions

What can be done to a file tree, as data. A plan is a list of actions; the first that fails
ends it, and what was done before stays done. -/

namespace SchemaWalk.Files

inductive FileAction where
  | createDirectories (path : String)
  /-- Makes an empty file, or empties the one that is there. -/
  | startFile (path : String)
  /-- Makes an empty file unless there is one. -/
  | ensureFile (path : String)
  | append (path : String) (content : ByteArray)
  | flush (path : String)
  | rename (source target : String)

structure Attempt where
  tree : FileTree
  succeeded : Bool

namespace FileTree

def done (t : FileTree) : Attempt := ⟨t, true⟩
def failed (t : FileTree) : Attempt := ⟨t, false⟩

def endsInDots (r : Route) : Bool := !r.isEmpty && r.all (· == ".")

/-- Makes the directories of a route from a place on. A directory is made under its own name
alone: one that is missing stays so if dots are all that follows. -/
def createAlong (t : FileTree) (place : Route) : Route → Attempt
  | [] => ⟨t, t.isDirectory place⟩
  | name :: rest =>
    if name = "." then t.createAlong place rest
    else if name = ".." then t.createAlong (parent place) rest
    else if !t.allows name then t.failed
    else match t.at? (place ++ [name]) with
      | some .directory => t.createAlong (place ++ [name]) rest
      | some (.file _) => t.failed
      | none =>
        if endsInDots rest then t.failed
        else (t.put (place ++ [name]) .directory).createAlong (place ++ [name]) rest

def createDirectories (t : FileTree) (path : String) : Attempt :=
  if t.accepts path then t.createAlong [] (route path) else t.failed

example : (empty.createDirectories "a/.").succeeded = false := by decide +kernel
example : ((empty.createDirectories "a").tree.createDirectories "a/.").succeeded := by
  decide +kernel

def startFile (t : FileTree) (path : String) : Attempt :=
  match t.resolve path with
  | none => t.failed
  | some place =>
    if t.isDirectory place then t.failed else (t.put place (.file .empty)).done

def ensureFile (t : FileTree) (path : String) : Attempt :=
  match t.resolve path with
  | none => t.failed
  | some place =>
    match t.at? place with
    | some .directory => t.failed
    | some (.file _) => t.done
    | none => (t.put place (.file .empty)).done

def append (t : FileTree) (path : String) (content : ByteArray) : Attempt :=
  match t.resolve path with
  | none => t.failed
  | some place =>
    match t.at? place with
    | some (.file before) => (t.put place (.file (before ++ content))).done
    | _ => t.failed

def remove (t : FileTree) (place : Route) : FileTree :=
  { t with entries := t.entries.erase place }

def rename (t : FileTree) (source target : String) : Attempt :=
  match t.resolve source, t.resolve target with
  | some here, some there =>
    match t.at? here with
    | some (.file content) =>
      if t.isDirectory there then t.failed
      else ((t.remove here).put there (.file content)).done
    | _ => t.failed
  | _, _ => t.failed

def perform (t : FileTree) : FileAction → Attempt
  | .createDirectories path => t.createDirectories path
  | .startFile path => t.startFile path
  | .ensureFile path => t.ensureFile path
  | .append path content => t.append path content
  | .flush _ => t.done
  | .rename source target => t.rename source target

def performAll (t : FileTree) : List FileAction → Attempt
  | [] => t.done
  | a :: rest =>
    if (t.perform a).succeeded then (t.perform a).tree.performAll rest else t.perform a

end FileTree

end SchemaWalk.Files
