import SchemaWalk.Cypher.Query
import SchemaWalk.Row

/-! # Executors and trackers

The database as the stepper sees it: a query goes in, rows or a message come out, or
nothing does before the query's time is up. What an executor answers next may depend on
everything it was asked before.

A tracker shows the state of one kind of request. Requests may overlap: each takes a ticket
when it starts, and its completion lands only while its ticket is the newest. -/

namespace SchemaWalk

inductive Reply where
  | rows (found : List Row)
  | failure (message : String)
  | silence

/-- Answers one query and moves on. Queries have no parameters: every literal is part of the
text. -/
class Executor (ε : Type) where
  ask : ε → Query → Reply × ε

def Reply.outcome (q : Query) : Reply → Except WalkError (List Row)
  | rows found => .ok found
  | failure message => .error (.execution message)
  | silence => .error (.timeout q.timeout)

def execute {ε : Type} [Executor ε] (e : ε) (q : Query) : Except WalkError (List Row) × ε :=
  ((Executor.ask e q).1.outcome q, (Executor.ask e q).2)

structure FixedReply where
  reply : Reply

instance : Executor FixedReply := ⟨fun e _ => (e.reply, e)⟩

/-! ## Trackers -/

structure QueryState (α : Type) where
  result : Option α
  loading : Bool
  error : Option String
  queryText : String
  deriving DecidableEq

namespace QueryState

variable {α : Type}

def idle : QueryState α := ⟨none, false, none, ""⟩

def waiting (q : Query) : QueryState α := ⟨none, true, none, q.text⟩

def settle (s : QueryState α) : Except WalkError α → QueryState α
  | .ok value => { s with loading := false, result := some value, error := none }
  | .error e => { s with loading := false, result := none, error := some e.message }

end QueryState

/-- The number of the request it was given to. Numbers have no bound here; a counter of 64 bits
gives the same ones as long as there are fewer than `2 ^ 64` requests and resets. -/
structure Ticket where
  generation : Nat
  deriving DecidableEq, Repr

/-- The newest generation, with no bound either, and what there is to see of it. -/
structure Tracker (α : Type) where
  generation : Nat
  state : QueryState α
  deriving DecidableEq

structure TrackedRun (α ε : Type) where
  tracker : Tracker α
  executor : ε
  landed : Bool

namespace Tracker

variable {α ε : Type}

def fresh : Tracker α := ⟨0, .idle⟩

def start (t : Tracker α) (q : Query) : Ticket × Tracker α :=
  (⟨t.generation + 1⟩, ⟨t.generation + 1, .waiting q⟩)

/-- Records an outcome and says whether it did: a stale one is dropped. -/
def finish (t : Tracker α) (ticket : Ticket) (outcome : Except WalkError α) : Bool × Tracker α :=
  if ticket.generation = t.generation then (true, { t with state := t.state.settle outcome })
  else (false, t)

/-- There is nothing to ask. Requests still under way are stale from now on. -/
def reset (t : Tracker α) : Tracker α := ⟨t.generation + 1, .idle⟩

def run [Executor ε] (t : Tracker α) (e : ε) (q : Query)
    (decode : List Row → Except WalkError α) : TrackedRun α ε :=
  let (ticket, started) := t.start q
  let (answer, executor) := execute e q
  let (landed, finished) := started.finish ticket (answer.bind decode)
  ⟨finished, executor, landed⟩

def runOrReset [Executor ε] (t : Tracker α) (e : ε) (q : Option Query)
    (decode : List Row → Except WalkError α) : TrackedRun α ε :=
  match q with
  | some q => t.run e q decode
  | none => ⟨t.reset, e, false⟩

theorem finish_start (t : Tracker α) (q : Query) (outcome : Except WalkError α) :
    (t.start q).2.finish (t.start q).1 outcome =
      (true, ⟨t.generation + 1, (QueryState.waiting q).settle outcome⟩) := by
  simp [start, finish]

theorem finish_stale {t : Tracker α} {ticket : Ticket}
    (h : ticket.generation ≠ t.generation) (outcome : Except WalkError α) :
    t.finish ticket outcome = (false, t) := by
  simp [finish, h]

end Tracker

end SchemaWalk
