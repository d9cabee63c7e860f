import SchemaWalk.Proofs.Candidate.Edits
import SchemaWalk.Proofs.Stepper.Refusal

/-! # Where the hops of a session start

Whatever a session does, its candidate is one that edits have made of a label. A hop takes the
filters of its origin from the candidate, so none of their names is repeated. -/

namespace SchemaWalk

variable {σ ε : Type}

theorem create_node_eq {label : String} {fs : List PropertyFilter} {n : NodePick}
    (h : NodePick.create label fs = .ok n) : n = ⟨label, fs⟩ := by
  unfold NodePick.create at h
  cases hvalid : NodePick.validate ⟨label, fs⟩ with
  | error e => rw [hvalid] at h; cases h
  | ok _ => rw [hvalid] at h; cases h; rfl

namespace Stepper

open Candidate (OrderedByName)

/-- The candidate has been made of a label by edits. -/
def HasEdited (s : Stepper σ ε) : Prop := ∃ label edits, s.candidate = .edited label edits

theorem edited_refocus {c c' : Candidate} (h : ∃ label edits, c = .edited label edits)
    (hr : Refocus c c') : ∃ label edits, c' = .edited label edits := by
  obtain ⟨label, edits, rfl⟩ := h
  cases hr with
  | label other => exact ⟨other, [], rfl⟩
  | @filter name value f hcreate =>
    refine ⟨label, edits ++ [.filter f ⟨name, value, hcreate⟩], ?_⟩
    rw [Candidate.edited_snoc]
    rfl
  | @unfilter index _ =>
    refine ⟨label, edits ++ [.unfilter index], ?_⟩
    rw [Candidate.edited_snoc]
    rfl

section Session

variable [Executor ε]

theorem edited_refreshNextLabels {s : Stepper σ ε} (h : s.HasEdited) :
    s.refreshNextLabels.HasEdited := by
  unfold HasEdited
  rcases candidate_refreshNextLabels s with hc | ⟨label, hc⟩
  · rw [hc]
    exact h
  · exact ⟨label, [], hc⟩

variable [KeyValueStore σ]

theorem edited_start (store : σ) (executor : ε) (b : QueryBuilder) :
    (start store executor b).HasEdited := by
  apply edited_refreshNextLabels
  exact ⟨"", [], rfl⟩

theorem edited_effect {s s' : Stepper σ ε} (h : s.HasEdited) (he : Effect s s') :
    s'.HasEdited := by
  cases he with
  | nothing => exact h
  | refocused hr => exact edited_refocus h hr
  | valuesAsked property => exact h
  | continued _ =>
    apply edited_refreshNextLabels
    exact ⟨"", [], rfl⟩
  | labelsAsked => exact edited_refreshNextLabels h
  | overviewAsked _ => exact h
  | reopened => exact edited_start _ _ _

/-! ## Committed hops -/

omit [Executor ε] [KeyValueStore σ] in
theorem origin_of_composeStep {s : Stepper σ ε} {typeName : String}
    {filters : List PropertyFilter} {direction : Direction} {step : Step}
    (h : s.composeStep typeName filters direction = .ok step) :
    step.origin = ⟨s.candidate.label, s.candidate.filters⟩ := by
  by_cases hready : s.candidate.isReady = true
  · rw [composeStep_of_ready hready] at h
    split at h
    · cases h
    · cases h
    · next origin _ horigin _ =>
      cases h
      exact create_node_eq horigin
  · rw [composeStep_of_not_ready hready] at h
    cases h

def Picks : Action → Prop
  | .pickRelationship _ _ _ | .pickGroup _ _ _ => True
  | _ => False

/-- A hop that is picked starts from the candidate, which has no two filters of one name. -/
structure PicksDistinct (s : Stepper σ ε) : Prop where
  edited : s.HasEdited
  origin : ∀ action s', Picks action → s.perform action = .ok s' →
    ∃ step, s'.walk.steps = s.walk.steps ++ [step] ∧
      step.origin = ⟨s.candidate.label, s.candidate.filters⟩ ∧
      (step.origin.filters.map (·.name)).Nodup

theorem picksDistinct_of_edited {s : Stepper σ ε} (h : s.HasEdited) : PicksDistinct s := by
  have hpick : ∀ {typeName filters direction s'},
      s.pickRelationship typeName filters direction = .ok s' →
      ∃ step, s'.walk.steps = s.walk.steps ++ [step] ∧
        step.origin = ⟨s.candidate.label, s.candidate.filters⟩ ∧
        (step.origin.filters.map (·.name)).Nodup := by
    intro typeName filters direction s' hok
    obtain ⟨step, hstep, rfl⟩ := continued_of_pickRelationship hok
    have horigin := origin_of_composeStep hstep
    refine ⟨step, ?_, horigin, ?_⟩
    · rw [walk, saved_continueFrom]
      rfl
    · obtain ⟨label, edits, hc⟩ := h
      rw [horigin, hc]
      exact Candidate.nodup_edited label edits
  refine ⟨h, ?_⟩
  intro action s' hpicks hok
  cases action with
  | pickRelationship typeName filters direction => exact hpick hok
  | pickGroup typeName filters direction => exact hpick hok
  | _ => exact hpicks.elim

/-- A candidate keeps its filters as an ordered map, however it is edited, and so does every session
that picks hops from it. -/
theorem filters_ordered_by_name (label : String) (edits : List Candidate.Edit) (store : σ)
    (executor : ε) (b : QueryBuilder) (actions : List Action) :
    OrderedByName label edits ∧ PicksDistinct ((start store executor b).follow actions) := by
  constructor
  · exact Candidate.orderedByName label edits
  · apply picksDistinct_of_edited
    exact follow_induction (fun _ _ => edited_effect) (edited_start store executor b) actions

end Session

end Stepper

end SchemaWalk
