import SchemaWalk.Proofs.Candidate.Filters
import SchemaWalk.Proofs.Executor.Behaviour
import SchemaWalk.Proofs.Stepper.Operation

/-! # What is refused, and what that leaves behind

A hop is refused for want of a label or of a type and for nothing else, because the candidate of a
session never has a filter without a name. A refused action, or one whose index is past the end,
leaves the stepper as it was, its store and the record of its executor included. -/

namespace SchemaWalk

variable {σ ε : Type}

theorem create_relationship_untyped (fs : List PropertyFilter) :
    RelationshipPick.create "" fs = .error .emptyRelationshipType := by
  simp [RelationshipPick.create, RelationshipPick.validate, Except.map]

namespace Stepper

/-! ## The candidate of a session -/

def NamedCandidate (s : Stepper σ ε) : Prop := NamedFilters s.candidate.filters

theorem named_refocus {c c' : Candidate} (h : NamedFilters c.filters) (hr : Refocus c c') :
    NamedFilters c'.filters := by
  cases hr with
  | label label =>
    intro f hf
    cases hf
  | filter hcreate =>
    intro g hg
    rcases Candidate.eq_or_mem_of_mem_putFilter hg with rfl | hg
    · exact name_of_create hcreate
    · exact h g hg
  | unfilter _ => exact fun f hf => h f (List.mem_of_mem_eraseIdx hf)

section Session

variable [Executor ε]

/-- Asking for labels keeps the candidate or selects one without filters. -/
theorem candidate_refreshNextLabels (s : Stepper σ ε) :
    s.refreshNextLabels.candidate = s.candidate ∨
      ∃ label, s.refreshNextLabels.candidate = .ofLabel label := by
  unfold refreshNextLabels selectOnlyLabel
  split
  · next label _ =>
    split
    · exact .inl rfl
    · exact .inr ⟨label, rfl⟩
  · exact .inl rfl

theorem named_refreshNextLabels {s : Stepper σ ε} (h : NamedCandidate s) :
    NamedCandidate s.refreshNextLabels := by
  unfold NamedCandidate
  rcases candidate_refreshNextLabels s with hc | ⟨label, hc⟩
  · rw [hc]
    exact h
  · rw [hc]
    intro f hf
    cases hf

variable [KeyValueStore σ]

theorem named_start (store : σ) (executor : ε) (builder : QueryBuilder) :
    NamedCandidate (start store executor builder) := by
  apply named_refreshNextLabels
  intro f hf
  cases hf

theorem named_effect {s s' : Stepper σ ε} (h : NamedCandidate s) (he : Effect s s') :
    NamedCandidate s' := by
  cases he with
  | nothing => exact h
  | refocused hr => exact named_refocus h hr
  | valuesAsked property => exact h
  | continued _ =>
    apply named_refreshNextLabels
    intro f hf
    cases hf
  | labelsAsked => exact named_refreshNextLabels h
  | overviewAsked _ => exact h
  | reopened => exact named_start _ _ _

theorem named_follow (store : σ) (executor : ε) (builder : QueryBuilder) (actions : List Action) :
    NamedCandidate ((start store executor builder).follow actions) :=
  follow_induction (fun _ _ => named_effect) (named_start store executor builder) actions

end Session

/-! ## Refusals -/

/-- Every filter was let through by its constructor. -/
def Made (fs : List PropertyFilter) : Prop :=
  ∀ f ∈ fs, ∃ name value, PropertyFilter.create name value = .ok f

theorem Made.named {fs : List PropertyFilter} (h : Made fs) : NamedFilters fs := by
  intro f hf
  obtain ⟨name, value, hcreate⟩ := h f hf
  exact name_of_create hcreate

variable [Executor ε] [KeyValueStore σ]

theorem pickRelationship_of_named {s : Stepper σ ε} (h : NamedCandidate s)
    (hl : s.candidate.label ≠ "") {typeName : String} {fs : List PropertyFilter}
    (ht : typeName ≠ "") (hfs : NamedFilters fs) (direction : Direction) :
    s.pickRelationship typeName fs direction = .ok (s.continueFrom (s.saved.append
      ⟨⟨s.candidate.label, s.candidate.filters⟩, ⟨typeName, fs⟩, direction⟩)) := by
  have hready : s.candidate.isReady = true := by simp [Candidate.isReady, hl]
  have horigin : s.candidate.toNodePick = .ok ⟨s.candidate.label, s.candidate.filters⟩ :=
    (create_node_eq_ok_iff h).mpr ⟨hl, rfl⟩
  rw [pickRelationship, composeStep_of_ready hready, horigin,
    (create_relationship_eq_ok_iff hfs).mpr ⟨ht, rfl⟩]
  rfl

open Operation

/-- Which actions are refused, why, and that they leave the whole stepper as it was. -/
structure RefusesCleanly (s : Stepper σ ε) : Prop where
  /-- The check of the origin lets every candidate with a label through. -/
  origin : s.candidate.label ≠ "" → ∃ origin, s.candidate.toNodePick = .ok origin
  unlabelled : s.candidate.label = "" → ∀ typeName filters direction,
    (ofAction (.pickRelationship typeName filters direction)).runOn s =
      (.error (.invalidStep "no label selected"), s)
  untyped : s.candidate.label ≠ "" → ∀ filters direction,
    (ofAction (.pickRelationship "" filters direction)).runOn s =
      (.error (.invalidStep "relationship type must not be empty"), s)
  picked : s.candidate.label ≠ "" → ∀ typeName filters direction, typeName ≠ "" → Made filters →
    ∃ s', (ofAction (.pickRelationship typeName filters direction)).runOn s = (.ok (), s')
  unnamed : ∀ value, (ofAction (.addFilter "" value)).runOn s =
    (.error (.invalidSelection "property name must not be empty"), s)
  added : ∀ name value, name ≠ "" →
    ∃ s', (ofAction (.addFilter name value)).runOn s = (.ok (), s')
  noFilter : ∀ index, s.candidate.filters.length ≤ index →
    (ofAction (.removeFilter index)).runOn s = (.ok (), s)
  noStep : ∀ index, s.walk.length ≤ index → (ofAction (.deleteStep index)).runOn s = (.ok (), s)

theorem refusesCleanly_of_named {s : Stepper σ ε} (h : NamedCandidate s) : RefusesCleanly s := by
  have hready : s.candidate.label ≠ "" → s.candidate.isReady = true := by
    intro hl
    simp [Candidate.isReady, hl]
  have horigin : s.candidate.label ≠ "" →
      s.candidate.toNodePick = .ok ⟨s.candidate.label, s.candidate.filters⟩ :=
    fun hl => (create_node_eq_ok_iff h).mpr ⟨hl, rfl⟩
  constructor
  · exact fun hl => ⟨_, horigin hl⟩
  · intro hl typeName filters direction
    have hunready : ¬ s.candidate.isReady = true := by simp [Candidate.isReady, hl]
    rw [runOn_ofAction, perform, Stepper.pickRelationship, composeStep_of_not_ready hunready]
    rfl
  · intro hl filters direction
    rw [runOn_ofAction, perform, Stepper.pickRelationship, composeStep_of_ready (hready hl),
      horigin hl, create_relationship_untyped]
    rfl
  · intro hl typeName filters direction ht hf
    rw [runOn_ofAction, perform, pickRelationship_of_named h hl ht hf.named]
    exact ⟨_, rfl⟩
  · intro value
    rw [runOn_ofAction]
    rfl
  · intro name value hn
    rw [runOn_ofAction, perform, Stepper.addFilter, create_filter_of_name hn]
    exact ⟨_, rfl⟩
  · intro index hi
    have hlt : ¬ index < s.candidate.filters.length := by omega
    rw [runOn_ofAction, perform, Stepper.removeFilter, if_neg hlt]
    rfl
  · intro index hi
    have hlt : ¬ index < s.walk.length := by omega
    rw [runOn_ofAction, perform, Stepper.deleteStep, if_neg hlt]
    rfl

/-- Whatever a session has done, and whatever its executor replied. -/
theorem refusals_leave_nothing (store : σ) (executor : ε) (builder : QueryBuilder)
    (actions : List Action) :
    RefusesCleanly ((start store (Recorded.mk executor []) builder).follow actions) :=
  refusesCleanly_of_named (named_follow store _ builder actions)

end Stepper

end SchemaWalk
