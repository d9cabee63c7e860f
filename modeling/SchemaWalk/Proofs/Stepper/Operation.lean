import SchemaWalk.Proofs.Stepper.Action

/-! # Actions as they run

An action is a row of checks and changes. A check that fails ends the action, and what was changed
by then stays changed. `perform` tells the outcome of an action at once; here actions are taken
apart, and it turns out that none has a check behind its first change. -/

namespace SchemaWalk.Stepper

variable {σ ε : Type}

/-- Changes made before a failure are not taken back. -/
abbrev Operation (σ ε : Type) := ExceptT WalkError (StateM (Stepper σ ε))

namespace Operation

/-- What an operation answers, and the stepper that it leaves. -/
def runOn {α : Type} (op : Operation σ ε α) (s : Stepper σ ε) : Except WalkError α × Stepper σ ε :=
  StateT.run op.run s

def check {α : Type} (outcome : Except WalkError α) : Operation σ ε α := .mk (pure outcome)

section Run

variable {α β : Type}

@[simp] theorem runOn_pure (x : α) (s : Stepper σ ε) :
    (pure x : Operation σ ε α).runOn s = (.ok x, s) := rfl

@[simp] theorem runOn_throw (e : WalkError) (s : Stepper σ ε) :
    (throw e : Operation σ ε α).runOn s = (.error e, s) := rfl

@[simp] theorem runOn_check (outcome : Except WalkError α) (s : Stepper σ ε) :
    (check outcome : Operation σ ε α).runOn s = (outcome, s) := rfl

@[simp] theorem runOn_get (s : Stepper σ ε) : (get : Operation σ ε _).runOn s = (.ok s, s) := rfl

@[simp] theorem runOn_modify (f : Stepper σ ε → Stepper σ ε) (s : Stepper σ ε) :
    (modify f : Operation σ ε Unit).runOn s = (.ok (), f s) := rfl

@[simp] theorem runOn_bind (op : Operation σ ε α) (f : α → Operation σ ε β) (s : Stepper σ ε) :
    (op >>= f).runOn s =
      match op.runOn s with
      | (.ok x, s') => (f x).runOn s'
      | (.error e, s') => (.error e, s') := by
  simp only [runOn, ExceptT.run_bind, StateT.run_bind]
  change (match StateT.run op.run s with | (_, _) => _) = _
  rcases StateT.run op.run s with ⟨outcome, s'⟩
  cases outcome <;> rfl

end Run

/-! ## The actions -/

variable [Executor ε]

def refocus (choose : Candidate → Candidate) : Operation σ ε Unit := do
  modify fun s => { s with candidate := choose s.candidate }
  modify refreshFocal

def addFilter (name value : String) : Operation σ ε Unit := do
  let f ← check (PropertyFilter.create name value)
  refocus (·.withFilter f)

def removeFilter (index : Nat) : Operation σ ε Unit := do
  let s ← get
  if s.candidate.filters.length ≤ index then return
  refocus (·.withoutFilter index)

def refreshNextLabels : Operation σ ε Unit := do
  modify askNextLabels
  modify selectOnlyLabel

/-- The walk is written before anything is asked about it. -/
def change (edit : SavedWalk σ → SavedWalk σ) : Operation σ ε Unit := do
  modify fun s => { s with saved := edit s.saved }
  modify resetCandidate
  refreshNextLabels

variable [KeyValueStore σ]

def pickRelationship (typeName : String) (filters : List PropertyFilter) (direction : Direction) :
    Operation σ ε Unit := do
  let s ← get
  if !s.candidate.isReady then throw .noLabelSelected
  let origin ← check s.candidate.toNodePick
  let relationship ← check (RelationshipPick.create typeName filters)
  change (·.append ⟨origin, relationship, direction⟩)

def deleteStep (index : Nat) : Operation σ ε Unit := do
  let s ← get
  if s.walk.length ≤ index then return
  change (·.truncate index)

def ofAction : Action → Operation σ ε Unit
  | .setLabel label => refocus (·.withLabel label)
  | .addFilter name value => addFilter name value
  | .removeFilter index => removeFilter index
  | .askValueCounts property => modify (·.askValueCounts property)
  | .pickRelationship typeName filters direction => pickRelationship typeName filters direction
  | .pickGroup typeName filters direction => pickRelationship typeName filters.filters direction
  | .deleteStep index => deleteStep index
  | .clearWalk => change (·.clear)
  | .refreshNextLabels => refreshNextLabels
  | .allLabels => modify fun s => s.allLabels.2
  | .allRelationshipTypes => modify fun s => s.allRelationshipTypes.2
  | .reopen => modify fun s => start s.saved.store s.executor s.builder

end Operation

/-! ## The outcome of an action -/

/-- A failure comes with the stepper as it was. -/
def concluded (s : Stepper σ ε) :
    Except WalkError (Stepper σ ε) → Except WalkError Unit × Stepper σ ε
  | .ok s' => (.ok (), s')
  | .error e => (.error e, s)

theorem composeStep_of_not_ready {s : Stepper σ ε} (h : ¬ s.candidate.isReady = true)
    (typeName : String) (filters : List PropertyFilter) (direction : Direction) :
    s.composeStep typeName filters direction = .error .noLabelSelected := by
  simp [composeStep, h]

theorem composeStep_of_ready {s : Stepper σ ε} (h : s.candidate.isReady = true)
    (typeName : String) (filters : List PropertyFilter) (direction : Direction) :
    s.composeStep typeName filters direction =
      match s.candidate.toNodePick, RelationshipPick.create typeName filters with
      | .error e, _ | .ok _, .error e => .error e
      | .ok origin, .ok relationship => .ok ⟨origin, relationship, direction⟩ := by
  simp only [composeStep, h, Bool.not_true, Bool.false_eq_true, if_false]
  cases s.candidate.toNodePick with
  | error e => rfl
  | ok origin => cases RelationshipPick.create typeName filters <;> rfl

section Outcome

open Operation

variable [Executor ε]

theorem runOn_addFilter (s : Stepper σ ε) (name value : String) :
    (Operation.addFilter name value).runOn s = concluded s (s.addFilter name value) := by
  unfold Stepper.addFilter Operation.addFilter
  cases PropertyFilter.create name value with
  | error e => simp [concluded, Except.map]
  | ok f => simp [concluded, Except.map, refocus]

theorem runOn_removeFilter (s : Stepper σ ε) (index : Nat) :
    (Operation.removeFilter index).runOn s = (.ok (), s.removeFilter index) := by
  unfold Stepper.removeFilter Operation.removeFilter
  by_cases h : index < s.candidate.filters.length
  · have hle : ¬ s.candidate.filters.length ≤ index := by omega
    simp [h, hle, refocus]
  · have hle : s.candidate.filters.length ≤ index := by omega
    simp [h, hle]

theorem runOn_refreshNextLabels (s : Stepper σ ε) :
    Operation.refreshNextLabels.runOn s = (.ok (), s.refreshNextLabels) := by
  simp [Operation.refreshNextLabels, Stepper.refreshNextLabels]

theorem runOn_change (s : Stepper σ ε) (edit : SavedWalk σ → SavedWalk σ) :
    (change edit).runOn s = (.ok (), s.continueFrom (edit s.saved)) := by
  simp [change, continueFrom, runOn_refreshNextLabels]

variable [KeyValueStore σ]

theorem runOn_deleteStep (s : Stepper σ ε) (index : Nat) :
    (Operation.deleteStep index).runOn s = (.ok (), s.deleteStep index) := by
  unfold Stepper.deleteStep Operation.deleteStep
  by_cases h : index < s.walk.length
  · have hle : ¬ s.walk.length ≤ index := by omega
    simp [h, hle, runOn_change]
  · have hle : s.walk.length ≤ index := by omega
    simp [h, hle]

theorem runOn_pickRelationship (s : Stepper σ ε) (typeName : String)
    (filters : List PropertyFilter) (direction : Direction) :
    (Operation.pickRelationship typeName filters direction).runOn s =
      concluded s (s.pickRelationship typeName filters direction) := by
  unfold Stepper.pickRelationship Operation.pickRelationship
  by_cases hready : s.candidate.isReady = true
  · rw [composeStep_of_ready hready]
    cases hnode : s.candidate.toNodePick with
    | error e => simp [hready, hnode, concluded, Except.map]
    | ok origin =>
      cases RelationshipPick.create typeName filters with
      | error e => simp [hready, hnode, concluded, Except.map]
      | ok relationship => simp [hready, hnode, concluded, Except.map, runOn_change]
  · rw [composeStep_of_not_ready hready]
    simp [hready, concluded, Except.map]

/-- An action either goes through as `perform` says or leaves nothing behind. -/
theorem runOn_ofAction (s : Stepper σ ε) (action : Action) :
    (ofAction action).runOn s = concluded s (s.perform action) := by
  cases action with
  | setLabel label => simp [ofAction, refocus, perform, concluded, setLabel]
  | addFilter name value => exact runOn_addFilter s name value
  | removeFilter index => exact runOn_removeFilter s index
  | askValueCounts property => rfl
  | pickRelationship typeName filters direction =>
    exact runOn_pickRelationship s typeName filters direction
  | pickGroup typeName filters direction =>
    exact runOn_pickRelationship s typeName filters.filters direction
  | deleteStep index => exact runOn_deleteStep s index
  | clearWalk => exact runOn_change s (·.clear)
  | refreshNextLabels => exact runOn_refreshNextLabels s
  | allLabels => rfl
  | allRelationshipTypes => rfl
  | reopen => rfl

theorem snd_runOn_ofAction (s : Stepper σ ε) (action : Action) :
    ((ofAction action).runOn s).2 = s.next action := by
  rw [runOn_ofAction]
  unfold next
  cases s.perform action <;> rfl

end Outcome

end SchemaWalk.Stepper
