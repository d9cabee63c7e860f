import Mathlib.Data.List.Forall2
import SchemaWalk.Proofs.Candidate.Filters
import SchemaWalk.Proofs.SavedWalk.Persistence
import SchemaWalk.Proofs.Shell.Arguments
import SchemaWalk.Shell.Session

/-! # What a command makes of a walk

Filters are taken as they are typed, and a push with all of its parts in order adds one step. The
other commands cut the walk, or leave it and its store alone. -/

namespace SchemaWalk.Shell

theorem mapError_eq_ok_iff {ε ε' α : Type} {g : ε → ε'} {x : Except ε α} {a : α} :
    x.mapError g = .ok a ↔ x = .ok a := by
  cases x <;> simp [Except.mapError]

/-! ## Filters as they are typed -/

/-- A name without an equals sign, an equals sign, and a value, which may hold more of them. -/
def Typed (raw : String) (f : PropertyFilter) : Prop :=
  ∃ name value : String, raw = name ++ "=" ++ value ∧ '=' ∉ name.toList ∧ Text.trim name ≠ "" ∧
    f = ⟨Text.trim name, .equality, Text.trim value⟩

theorem filterOf_eq_ok_iff {raw : String} {f : PropertyFilter} :
    filterOf raw = .ok f ↔ Typed raw f := by
  unfold filterOf
  constructor
  · intro h
    split at h
    · cases h
    · next name value hsplit =>
      obtain ⟨hraw, hname⟩ := append_of_splitFirst hsplit
      have heq : raw = name ++ "=" ++ value := by
        rw [← String.toList_inj, hraw]
        simp
      unfold PropertyFilter.create at h
      split at h
      · cases h
      · next hempty =>
        cases h
        exact ⟨name, value, heq, hname, by simpa using hempty, rfl⟩
  · rintro ⟨name, value, rfl, hname, hempty, rfl⟩
    have hsplit : splitFirst '=' (name ++ "=" ++ value) = some (name, value) :=
      splitFirst_of_append (by simp) hname
    have hfalse : (Text.trim name).isEmpty = false := by simpa using hempty
    simp only [hsplit, PropertyFilter.create, hfalse, Bool.false_eq_true, if_false]
    rfl

/-- The first that is no filter stops the reading, so every one of them is one. -/
theorem filtersOf_eq_ok_iff {raws : List String} {fs : List PropertyFilter} :
    filtersOf raws = .ok fs ↔ List.Forall₂ Typed raws fs := by
  induction raws generalizing fs with
  | nil => simp [filtersOf, eq_comm]
  | cons raw raws ih =>
    rw [filtersOf, List.forall₂_cons_left_iff, bind_eq_ok_iff]
    constructor
    · rintro ⟨f, hf, h⟩
      obtain ⟨gs, hgs, h⟩ := bind_eq_ok_iff.mp h
      cases h
      exact ⟨f, gs, filterOf_eq_ok_iff.mp hf, ih.mp hgs, rfl⟩
    · rintro ⟨f, gs, hf, hgs, rfl⟩
      exact ⟨f, filterOf_eq_ok_iff.mpr hf, bind_eq_ok_iff.mpr ⟨gs, ih.mpr hgs, rfl⟩⟩

theorem Typed.name_ne {raw : String} {f : PropertyFilter} (h : Typed raw f) : f.name ≠ "" := by
  obtain ⟨name, value, -, -, hname, rfl⟩ := h
  exact hname

theorem named_of_typed {raws : List String} {fs : List PropertyFilter}
    (h : List.Forall₂ Typed raws fs) : NamedFilters fs := by
  apply forall₂_right (P := fun f => f.name ≠ "") _ h
  intro raw f hf
  exact hf.name_ne

/-! ## Pushes -/

/-- The step of a push: label and type are there, every filter is one, and all stands in the order
in which it was given. -/
structure Pushes (label typeName : String) (inbound : Bool)
    (nodeFilters relationshipFilters : List String) (step : Step) : Prop where
  label : step.origin.label = label ∧ label ≠ ""
  typeName : step.relationship.typeName = typeName ∧ typeName ≠ ""
  nodeFilters : List.Forall₂ Typed nodeFilters step.origin.filters
  relationshipFilters : List.Forall₂ Typed relationshipFilters step.relationship.filters
  direction : step.direction = if inbound then .inbound else .outbound

theorem pushedStep_eq_ok_iff {label typeName : String} {inbound : Bool}
    {nodeFilters relationshipFilters : List String} {step : Step} :
    pushedStep label typeName inbound nodeFilters relationshipFilters = .ok step ↔
      Pushes label typeName inbound nodeFilters relationshipFilters step := by
  unfold pushedStep
  constructor
  · intro h
    obtain ⟨fs, hfs, h⟩ := bind_eq_ok_iff.mp h
    obtain ⟨gs, hgs, h⟩ := bind_eq_ok_iff.mp h
    obtain ⟨n, hn, h⟩ := bind_eq_ok_iff.mp h
    obtain ⟨r, hr, h⟩ := bind_eq_ok_iff.mp h
    rw [filtersOf_eq_ok_iff] at hfs hgs
    rw [mapError_eq_ok_iff] at hn hr
    obtain ⟨hlabel, rfl⟩ := (create_node_eq_ok_iff (named_of_typed hfs)).mp hn
    obtain ⟨htype, rfl⟩ := (create_relationship_eq_ok_iff (named_of_typed hgs)).mp hr
    cases h
    exact ⟨⟨rfl, hlabel⟩, ⟨rfl, htype⟩, hfs, hgs, rfl⟩
  · intro h
    obtain ⟨⟨origin, fs⟩, ⟨type, gs⟩, direction⟩ := step
    obtain ⟨⟨rfl, hlabel⟩, ⟨rfl, htype⟩, hfs, hgs, rfl⟩ := h
    have hn := (create_node_eq_ok_iff (named_of_typed hfs)).mpr ⟨hlabel, rfl⟩
    have hr := (create_relationship_eq_ok_iff (named_of_typed hgs)).mpr ⟨htype, rfl⟩
    refine bind_eq_ok_iff.mpr ⟨fs, filtersOf_eq_ok_iff.mpr hfs, ?_⟩
    refine bind_eq_ok_iff.mpr ⟨gs, filtersOf_eq_ok_iff.mpr hgs, ?_⟩
    refine bind_eq_ok_iff.mpr ⟨_, mapError_eq_ok_iff.mpr hn, ?_⟩
    exact bind_eq_ok_iff.mpr ⟨_, mapError_eq_ok_iff.mpr hr, rfl⟩

theorem Pushes.validate {label typeName : String} {inbound : Bool}
    {nodeFilters relationshipFilters : List String} {step : Step}
    (h : Pushes label typeName inbound nodeFilters relationshipFilters step) :
    step.validate = .ok () := by
  obtain ⟨⟨origin, fs⟩, ⟨type, gs⟩, direction⟩ := step
  obtain ⟨⟨rfl, hlabel⟩, ⟨rfl, htype⟩, hfs, hgs, -⟩ := h
  simp [Step.validate, NodePick.validate, RelationshipPick.validate, hlabel, htype,
    validateFilters_of_named (named_of_typed hfs), validateFilters_of_named (named_of_typed hgs)]

/-! ## Commands -/

namespace Command

/-- The walk that a command writes, if it writes one. -/
def edit (w : Walk) : Command → Option Walk
  | .push label typeName inbound nodeFilters relationshipFilters =>
    (pushedStep label typeName inbound nodeFilters relationshipFilters).toOption.map w.append
  | .pop index => some (w.truncate index)
  | .clear => some .empty
  | .show | .queries .. | .overview => none

theorem validate_edit {w w' : Walk} (hw : w.validate = .ok ()) {c : Command}
    (h : c.edit w = some w') : w'.validate = .ok () := by
  cases c with
  | «show» => cases h
  | queries => cases h
  | overview => cases h
  | pop index =>
    cases h
    have hcut : (SavedWalk.Action.truncate index).Checked := trivial
    exact SavedWalk.validate_onWalk hw hcut
  | clear =>
    cases h
    rfl
  | push label typeName inbound nodeFilters relationshipFilters =>
    obtain ⟨step, hstep, rfl⟩ := Option.map_eq_some_iff.mp h
    have hpushed :
        pushedStep label typeName inbound nodeFilters relationshipFilters = .ok step := by
      cases hp : pushedStep label typeName inbound nodeFilters relationshipFilters with
      | error e => simp [hp, Except.toOption] at hstep
      | ok s => simpa [hp, Except.toOption] using hstep
    have hadded : (SavedWalk.Action.append step).Checked :=
      (pushedStep_eq_ok_iff.mp hpushed).validate
    exact SavedWalk.validate_onWalk hw hadded

end Command

variable {σ : Type} [KeyValueStore σ]

/-- What a command writes is all that it does to a saved walk. -/
theorem saved_run (b : QueryBuilder) (s : SavedWalk σ) (c : Command) :
    (run b s c).2 = match c.edit s.walk with
      | some w => SavedWalk.persist { s with walk := w }
      | none => s := by
  cases c with
  | «show» => rfl
  | overview => rfl
  | pop index => rfl
  | clear => simp [run, Command.edit, SavedWalk.clear, SavedWalk.truncate]
  | push label typeName inbound nodeFilters relationshipFilters =>
    simp only [run, Command.edit]
    cases pushedStep label typeName inbound nodeFilters relationshipFilters <;> rfl
  | queries label filters property =>
    simp only [run, Command.edit]
    cases filtersOf filters <;> rfl

theorem edit_of_failed {b : QueryBuilder} {s : SavedWalk σ} {c : Command} {message : String}
    (h : (run b s c).1 = .error message) : c.edit s.walk = none := by
  cases c with
  | «show» => cases h
  | overview => cases h
  | pop index => cases h
  | clear => cases h
  | queries => rfl
  | push label typeName inbound nodeFilters relationshipFilters =>
    simp only [run, Command.edit] at h ⊢
    cases hp : pushedStep label typeName inbound nodeFilters relationshipFilters with
    | error e => rfl
    | ok step =>
      rw [hp] at h
      cases h

end SchemaWalk.Shell
