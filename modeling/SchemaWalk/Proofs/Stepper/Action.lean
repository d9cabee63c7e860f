import SchemaWalk.Stepper

/-! # Stepper actions

Everything a user can do to a stepper, as data, so that sessions of any length can be spoken of.
An action that fails leaves the stepper as it was. -/

namespace SchemaWalk.Stepper

variable {σ ε : Type}

inductive Action where
  | setLabel (label : String)
  | addFilter (name value : String)
  | removeFilter (index : Nat)
  | askValueCounts (property : String)
  | pickRelationship (typeName : String) (filters : List PropertyFilter) (direction : Direction)
  | pickGroup (typeName : String) (filters : FilterSet) (direction : Direction)
  | deleteStep (index : Nat)
  | clearWalk
  | refreshNextLabels
  | allLabels
  | allRelationshipTypes
  /-- A new session on the same store, with the same executor and builder. -/
  | reopen
  deriving DecidableEq

variable [KeyValueStore σ] [Executor ε]

def perform (s : Stepper σ ε) : Action → Except WalkError (Stepper σ ε)
  | .setLabel label => .ok (s.setLabel label)
  | .addFilter name value => s.addFilter name value
  | .removeFilter index => .ok (s.removeFilter index)
  | .askValueCounts property => .ok (s.askValueCounts property)
  | .pickRelationship typeName filters direction => s.pickRelationship typeName filters direction
  | .pickGroup typeName filters direction => s.pickGroup typeName filters direction
  | .deleteStep index => .ok (s.deleteStep index)
  | .clearWalk => .ok s.clearWalk
  | .refreshNextLabels => .ok s.refreshNextLabels
  | .allLabels => .ok s.allLabels.2
  | .allRelationshipTypes => .ok s.allRelationshipTypes.2
  | .reopen => .ok (start s.saved.store s.executor s.builder)

/-- The stepper after an action, whether it fails or not. -/
def next (s : Stepper σ ε) (action : Action) : Stepper σ ε :=
  match s.perform action with
  | .ok s' => s'
  | .error _ => s

def follow (s : Stepper σ ε) (actions : List Action) : Stepper σ ε := actions.foldl next s

@[simp] theorem follow_nil (s : Stepper σ ε) : s.follow [] = s := rfl

@[simp] theorem follow_cons (s : Stepper σ ε) (action : Action) (actions : List Action) :
    s.follow (action :: actions) = (s.next action).follow actions := rfl

theorem follow_append (s : Stepper σ ε) (actions later : List Action) :
    s.follow (actions ++ later) = (s.follow actions).follow later :=
  List.foldl_append

/-! ## The effect of an action -/

inductive Refocus (c : Candidate) : Candidate → Prop where
  | label (label : String) : Refocus c (c.withLabel label)
  | filter {name value f} : PropertyFilter.create name value = .ok f → Refocus c (c.withFilter f)
  | unfilter {index} : index < c.filters.length → Refocus c (c.withoutFilter index)

inductive Edit (s : Stepper σ ε) : SavedWalk σ → Prop where
  | pick {typeName filters direction step} :
      s.composeStep typeName filters direction = .ok step → Edit s (s.saved.append step)
  | cut {index} : index < s.walk.length → Edit s (s.saved.truncate index)
  | clear : Edit s s.saved.clear

/-- What can become of a stepper in one action. -/
inductive Effect (s : Stepper σ ε) : Stepper σ ε → Prop where
  | nothing : Effect s s
  | refocused {c} : Refocus s.candidate c → Effect s { s with candidate := c }.refreshFocal
  | valuesAsked (property : String) : Effect s (s.askValueCounts property)
  | continued {saved} : Edit s saved → Effect s (s.continueFrom saved)
  | labelsAsked : Effect s s.refreshNextLabels
  | overviewAsked {q} : q = s.builder.allLabels ∨ q = s.builder.allRelationshipTypes →
      Effect s { s with executor := (execute s.executor q).2 }
  | reopened : Effect s (start s.saved.store s.executor s.builder)

theorem continued_of_pickRelationship {s s' : Stepper σ ε} {typeName : String}
    {filters : List PropertyFilter} {direction : Direction}
    (h : s.pickRelationship typeName filters direction = .ok s') :
    ∃ step, s.composeStep typeName filters direction = .ok step ∧
      s' = s.continueFrom (s.saved.append step) := by
  unfold pickRelationship at h
  cases hc : s.composeStep typeName filters direction with
  | error e => rw [hc] at h; cases h
  | ok step => rw [hc] at h; cases h; exact ⟨step, rfl, rfl⟩

theorem effect_pickRelationship {s s' : Stepper σ ε} {typeName : String}
    {filters : List PropertyFilter} {direction : Direction}
    (h : s.pickRelationship typeName filters direction = .ok s') : Effect s s' := by
  obtain ⟨step, hc, rfl⟩ := continued_of_pickRelationship h
  exact .continued (.pick hc)

theorem effect_addFilter {s s' : Stepper σ ε} {name value : String}
    (h : s.addFilter name value = .ok s') : Effect s s' := by
  unfold addFilter at h
  cases hf : PropertyFilter.create name value with
  | error e => rw [hf] at h; cases h
  | ok f => rw [hf] at h; cases h; exact .refocused (.filter hf)

theorem effect_removeFilter (s : Stepper σ ε) (index : Nat) : Effect s (s.removeFilter index) := by
  unfold removeFilter
  split
  · next h => exact .refocused (.unfilter h)
  · exact .nothing

theorem effect_deleteStep (s : Stepper σ ε) (index : Nat) : Effect s (s.deleteStep index) := by
  unfold deleteStep
  split
  · next h => exact .continued (.cut h)
  · exact .nothing

theorem effect_perform {s s' : Stepper σ ε} {action : Action} (h : s.perform action = .ok s') :
    Effect s s' := by
  cases action with
  | setLabel label => cases h; exact .refocused (.label label)
  | addFilter name value => exact effect_addFilter h
  | removeFilter index => cases h; exact effect_removeFilter s index
  | askValueCounts property => cases h; exact .valuesAsked property
  | pickRelationship typeName filters direction => exact effect_pickRelationship h
  | pickGroup typeName filters direction => exact effect_pickRelationship h
  | deleteStep index => cases h; exact effect_deleteStep s index
  | clearWalk => cases h; exact .continued .clear
  | refreshNextLabels => cases h; exact .labelsAsked
  | allLabels => cases h; exact .overviewAsked (.inl rfl)
  | allRelationshipTypes => cases h; exact .overviewAsked (.inr rfl)
  | reopen => cases h; exact .reopened

theorem effect_next (s : Stepper σ ε) (action : Action) : Effect s (s.next action) := by
  unfold next
  split
  · next s' h => exact effect_perform h
  · exact .nothing

/-- The actions that change the walk unless they are refused. -/
def Commits (s : Stepper σ ε) : Action → Prop
  | .pickRelationship _ _ _ | .pickGroup _ _ _ | .clearWalk => True
  | .deleteStep index => index < s.walk.length
  | _ => False

theorem continued_of_commits {s s' : Stepper σ ε} {action : Action} (hc : s.Commits action)
    (h : s.perform action = .ok s') : ∃ saved, Edit s saved ∧ s' = s.continueFrom saved := by
  cases action with
  | pickRelationship typeName filters direction =>
    obtain ⟨step, hstep, rfl⟩ := continued_of_pickRelationship h
    exact ⟨_, .pick hstep, rfl⟩
  | pickGroup typeName filters direction =>
    obtain ⟨step, hstep, rfl⟩ := continued_of_pickRelationship h
    exact ⟨_, .pick hstep, rfl⟩
  | deleteStep index =>
    have hlt : index < s.walk.length := hc
    simp only [perform, deleteStep, if_pos hlt, Except.ok.injEq] at h
    exact ⟨_, .cut hlt, h.symm⟩
  | clearWalk => cases h; exact ⟨_, .clear, rfl⟩
  | _ => exact hc.elim

/-- What the start of a session has and every effect keeps holds throughout. -/
theorem follow_induction {P : Stepper σ ε → Prop} (keeps : ∀ s s', P s → Effect s s' → P s')
    {s : Stepper σ ε} (h : P s) (actions : List Action) : P (s.follow actions) := by
  induction actions generalizing s with
  | nil => exact h
  | cons action actions ih => exact ih (keeps s _ h (effect_next s action))

end SchemaWalk.Stepper
