import SchemaWalk.Snapshot
import SchemaWalk.Store

/-! # Saved walks

A walk together with the store it is kept in. Every change to the walk is written at once;
when a write fails, the walk goes on all the same. -/

namespace SchemaWalk

def walkKey : String := "walk"

inductive Phase where
  | empty
  | inProgress
  deriving DecidableEq, Repr

def Phase.name : Phase → String
  | empty => "Empty"
  | inProgress => "InProgress"

structure SavedWalk (σ : Type) where
  walk : Walk
  store : σ
  deriving DecidableEq

namespace SavedWalk

variable {σ : Type} [KeyValueStore σ]

omit [KeyValueStore σ] in
def fresh (store : σ) : SavedWalk σ := ⟨.empty, store⟩

omit [KeyValueStore σ] in
/-- Puts the walk of a text in place of the current one. Nothing is written, and a text
that is no walk changes nothing. -/
def restore (s : SavedWalk σ) (text : String) : Except WalkError (SavedWalk σ) :=
  (parseSnapshot text).map fun w => { s with walk := w }

def load (store : σ) : SavedWalk σ :=
  match KeyValueStore.get store walkKey with
  | .ok (some text) =>
    match (fresh store).restore text with
    | .ok s => s
    | .error _ => fresh store
  | _ => fresh store

omit [KeyValueStore σ] in
def phase (s : SavedWalk σ) : Phase := if s.walk.isEmpty then .empty else .inProgress

/-- Writes the walk. A failed write goes unnoticed. -/
def persist (s : SavedWalk σ) : SavedWalk σ :=
  { s with store := (KeyValueStore.set s.store walkKey s.walk.snapshot).2 }

def append (s : SavedWalk σ) (step : Step) : SavedWalk σ :=
  persist { s with walk := s.walk.append step }

def truncate (s : SavedWalk σ) (index : Nat) : SavedWalk σ :=
  persist { s with walk := s.walk.truncate index }

def clear (s : SavedWalk σ) : SavedWalk σ := s.truncate 0

@[simp] theorem walk_persist (s : SavedWalk σ) : s.persist.walk = s.walk := rfl

@[simp] theorem walk_append (s : SavedWalk σ) (step : Step) :
    (s.append step).walk = s.walk.append step := rfl

@[simp] theorem walk_truncate (s : SavedWalk σ) (index : Nat) :
    (s.truncate index).walk = s.walk.truncate index := rfl

end SavedWalk

end SchemaWalk
