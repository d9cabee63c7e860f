import SchemaWalk.Executor
import SchemaWalk.Files.Action
import SchemaWalk.Settings
import SchemaWalk.Text.Escape

/-! # Query logs

An executor that writes every query it gets an answer for into a file, one file a day. A
query that is still unanswered when its time is up leaves no entry. -/

namespace SchemaWalk

open Files

structure Moment where
  year : Nat
  month : Nat
  day : Nat
  hour : Nat
  minute : Nat
  second : Nat
  deriving DecidableEq, Repr

namespace Moment

def padded (width n : Nat) : String :=
  let digits := toString n
  "".pushn '0' (width - digits.length) ++ digits

def date (m : Moment) (separator : String) : String :=
  padded 4 m.year ++ separator ++ padded 2 m.month ++ separator ++ padded 2 m.day

def time (m : Moment) : String :=
  padded 2 m.hour ++ ":" ++ padded 2 m.minute ++ ":" ++ padded 2 m.second

def stamp (m : Moment) : String := m.date "-" ++ " " ++ m.time

def logFileName (m : Moment) : String := "queries_" ++ m.date "" ++ ".log"

end Moment

def Reply.status : Reply → Option String
  | rows found => some ("OK rows=" ++ toString found.length)
  | failure message => some ("ERR " ++ message)
  | silence => none

/-- The time and the status, the query without the blanks around it, an empty line. -/
def logEntry (now : Moment) (q : Query) (status : String) : String :=
  now.stamp ++ " | " ++ status ++ "\n" ++ Text.trim q.text ++ "\n\n"

def logFile (dir : String) (now : Moment) : String := join dir now.logFileName

def logPlan (dir : String) (now : Moment) (entry : String) : List FileAction :=
  [.createDirectories dir, .ensureFile (logFile dir now),
    .append (logFile dir now) entry.toUTF8]

structure LoggedExecutor (ε : Type) where
  inner : ε
  dir : Option String
  now : Moment
  tree : FileTree

namespace LoggedExecutor

variable {ε : Type}

def ofSettings (inner : ε) (s : Settings) (env : Environment) (now : Moment) (tree : FileTree) :
    LoggedExecutor ε := ⟨inner, s.queryLogDir env, now, tree⟩

/-- Logs a reply; files that cannot be written stay as they are. -/
def log (e : LoggedExecutor ε) (q : Query) (reply : Reply) : FileTree :=
  match e.dir, reply.status with
  | some dir, some status =>
    (e.tree.performAll (logPlan dir e.now (logEntry e.now q status))).tree
  | _, _ => e.tree

def answer [Executor ε] (e : LoggedExecutor ε) (q : Query) : Reply × LoggedExecutor ε :=
  let (reply, inner) := Executor.ask e.inner q
  (reply, { e with inner, tree := e.log q reply })

instance [Executor ε] : Executor (LoggedExecutor ε) := ⟨answer⟩

end LoggedExecutor

end SchemaWalk
