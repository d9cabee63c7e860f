import Mathlib.Algebra.GroupWithZero.Nat
import Mathlib.Data.List.Nodup
import SchemaWalk.Counts

/-! # Values that no two nodes share

Uniqueness is decided by comparing the number of values with the number of nodes that have one. The
entry of the nodes without a value is counted as a value too, so where there is one the answer is
yes just when two nodes share a value and no others do. -/

namespace SchemaWalk.ValueCount

variable {values : List ValueCount}

/-- The entries of nodes that have the property. -/
def carried (values : List ValueCount) : List ValueCount := values.filter (·.value.isSome)

def nodesWithProperty (values : List ValueCount) : Nat := ((carried values).map (·.count)).sum

/-- How many nodes come after the first that has the same value. -/
def surplus (values : List ValueCount) : Nat := (values.map (·.count - 1)).sum

/-- Distinct values, each with the nodes that have it. -/
structure Distribution (values : List ValueCount) : Prop where
  distinct : (values.map (·.value)).Nodup
  positive : ∀ v ∈ values, 1 ≤ v.count

theorem mem_carried {v : ValueCount} : v ∈ carried values ↔ v ∈ values ∧ v.value ≠ none := by
  rw [carried, List.mem_filter, Option.isSome_iff_ne_none]

theorem length_eq_carried_add (values : List ValueCount) :
    values.length = (carried values).length + (values.map (·.value)).count none := by
  induction values with
  | nil => rfl
  | cons v rest ih =>
    cases hv : v.value with
    | none =>
      simp only [carried, List.filter_cons, List.map_cons, List.count_cons_self, List.length_cons,
        hv, Option.isSome_none, Bool.false_eq_true, if_false] at ih ⊢
      omega
    | some text =>
      have hne : some text ≠ (none : Option String) := Option.some_ne_none text
      simp only [carried, List.filter_cons, List.map_cons, List.count_cons_of_ne hne,
        List.length_cons, hv, Option.isSome_some, if_true] at ih ⊢
      omega

/-! ## Nodes that share a value -/

theorem surplus_cons (v : ValueCount) (rest : List ValueCount) :
    surplus (v :: rest) = v.count - 1 + surplus rest := by
  rw [surplus, surplus, List.map_cons, List.sum_cons]

theorem sum_counts (h : ∀ v ∈ values, 1 ≤ v.count) :
    (values.map (·.count)).sum = values.length + surplus values := by
  induction values with
  | nil => rfl
  | cons v rest ih =>
    have hv := h v List.mem_cons_self
    have hrest := ih fun w hw => h w (List.mem_cons_of_mem v hw)
    rw [surplus_cons, List.map_cons, List.sum_cons, List.length_cons]
    omega

theorem surplus_eq_zero_iff : surplus values = 0 ↔ ∀ v ∈ values, v.count ≤ 1 := by
  induction values with
  | nil => simp [surplus]
  | cons v rest ih =>
    rw [surplus_cons, Nat.add_eq_zero_iff, ih, List.forall_mem_cons, Nat.sub_eq_zero_iff_le]

theorem surplus_eq_one_iff (h : values.Nodup) :
    surplus values = 1 ↔ ∃ v ∈ values, v.count = 2 ∧ ∀ w ∈ values, w ≠ v → w.count ≤ 1 := by
  induction values with
  | nil => simp [surplus]
  | cons v rest ih =>
    obtain ⟨hv, hrest⟩ := List.nodup_cons.mp h
    rw [surplus_cons]
    constructor
    · intro hsum
      by_cases hcount : v.count ≤ 1
      · obtain ⟨u, hu, htwo, hothers⟩ := (ih hrest).mp (by omega)
        refine ⟨u, List.mem_cons_of_mem v hu, htwo, ?_⟩
        exact List.forall_mem_cons.mpr ⟨fun _ => hcount, hothers⟩
      · have hzero : surplus rest = 0 := by omega
        refine ⟨v, List.mem_cons_self, by omega, ?_⟩
        exact List.forall_mem_cons.mpr
          ⟨fun hne => absurd rfl hne, fun w hw _ => surplus_eq_zero_iff.mp hzero w hw⟩
    · rintro ⟨u, hu, htwo, hothers⟩
      rcases List.mem_cons.mp hu with rfl | hu
      · have hzero : surplus rest = 0 := by
          apply surplus_eq_zero_iff.mpr
          intro w hw
          apply hothers w (List.mem_cons_of_mem u hw)
          rintro rfl
          exact hv hw
        omega
      · have hcount : v.count ≤ 1 := by
          apply hothers v List.mem_cons_self
          rintro rfl
          exact hv hu
        have hone : surplus rest = 1 :=
          (ih hrest).mpr ⟨u, hu, htwo, fun w hw => hothers w (List.mem_cons_of_mem v hw)⟩
        omega

/-! ## The answer -/

/-- Yes just when the nodes that share a value are as many as the entries without one. -/
theorem isAllUnique_iff_surplus (h : ∀ v ∈ values, 1 ≤ v.count) :
    isAllUnique values (nodesWithProperty values) = true ↔
      surplus (carried values) = (values.map (·.value)).count none := by
  have hsum : nodesWithProperty values = _ :=
    sum_counts fun v hv => h v (mem_carried.mp hv).1
  have hlength := length_eq_carried_add values
  rw [isAllUnique, beq_iff_eq]
  omega

theorem Distribution.le_one_iff (h : Distribution values) {v : ValueCount} (hv : v ∈ values) :
    v.count ≤ 1 ↔ v.count = 1 := by
  have hpositive := h.positive v hv
  omega

theorem isAllUnique_of_all_carried (h : Distribution values)
    (hall : ∀ v ∈ values, v.value ≠ none) :
    isAllUnique values (nodesWithProperty values) = true ↔ ∀ v ∈ values, v.count = 1 := by
  have hcarried : carried values = values :=
    List.filter_eq_self.mpr fun v hv => Option.isSome_iff_ne_none.mpr (hall v hv)
  have hnone : (values.map (·.value)).count none = 0 := by
    rw [List.count_eq_zero]
    intro hmem
    obtain ⟨v, hv, hvalue⟩ := List.mem_map.mp hmem
    exact hall v hv hvalue
  rw [isAllUnique_iff_surplus h.positive, hcarried, hnone, surplus_eq_zero_iff]
  exact forall₂_congr fun v hv => h.le_one_iff hv

/-- The surplus that makes up for the entry without a value is that of one value. -/
theorem isAllUnique_of_missing (h : Distribution values) {missing : ValueCount}
    (hmissing : missing ∈ values) (hvalue : missing.value = none) :
    isAllUnique values (nodesWithProperty values) = true ↔
      ∃ v ∈ values, v.value ≠ none ∧ v.count = 2 ∧
        ∀ w ∈ values, w.value ≠ none → w ≠ v → w.count = 1 := by
  have hcount : (values.map (·.value)).count none = 1 :=
    List.count_eq_one_of_mem h.distinct (List.mem_map.mpr ⟨missing, hmissing, hvalue⟩)
  have hnodup : (carried values).Nodup := (List.Nodup.of_map _ h.distinct).filter _
  rw [isAllUnique_iff_surplus h.positive, hcount, surplus_eq_one_iff hnodup]
  constructor
  · rintro ⟨v, hv, htwo, hothers⟩
    obtain ⟨hv, hsome⟩ := mem_carried.mp hv
    refine ⟨v, hv, hsome, htwo, ?_⟩
    intro w hw hw' hne
    exact (h.le_one_iff hw).mp (hothers w (mem_carried.mpr ⟨hw, hw'⟩) hne)
  · rintro ⟨v, hv, hsome, htwo, hothers⟩
    refine ⟨v, mem_carried.mpr ⟨hv, hsome⟩, htwo, ?_⟩
    intro w hw hne
    obtain ⟨hw, hw'⟩ := mem_carried.mp hw
    exact (h.le_one_iff hw).mpr (hothers w hw hw' hne)

/-- With an entry for nodes without the property, a yes means that two nodes share a value and that
all other values are different. Without one it means that all values are. -/
theorem isAllUnique_iff (h : Distribution values) :
    ((∀ v ∈ values, v.value ≠ none) →
      (isAllUnique values (nodesWithProperty values) = true ↔ ∀ v ∈ values, v.count = 1)) ∧
    ((∃ v ∈ values, v.value = none) →
      (isAllUnique values (nodesWithProperty values) = true ↔
        ∃ v ∈ values, v.value ≠ none ∧ v.count = 2 ∧
          ∀ w ∈ values, w.value ≠ none → w ≠ v → w.count = 1)) := by
  constructor
  · exact isAllUnique_of_all_carried h
  · rintro ⟨missing, hmissing, hvalue⟩
    exact isAllUnique_of_missing h hmissing hvalue

def sharedValue : List ValueCount := [⟨none, 3⟩, ⟨some "Ada", 2⟩, ⟨some "Eva", 1⟩]

theorem isAllUnique_iff_shared :
    Distribution sharedValue ∧ (∃ v ∈ sharedValue, v.value = none) ∧
      isAllUnique sharedValue (nodesWithProperty sharedValue) = true := by
  have hdistribution : Distribution sharedValue := ⟨by decide, by decide⟩
  have hmissing : ∃ v ∈ sharedValue, v.value = none := ⟨⟨none, 3⟩, by decide, rfl⟩
  obtain ⟨-, hiff⟩ := isAllUnique_iff hdistribution
  refine ⟨hdistribution, hmissing, (hiff hmissing).mpr ?_⟩
  exact ⟨⟨some "Ada", 2⟩, by decide, by decide, rfl, by decide⟩

def singleValue : List ValueCount := [⟨some "a", 1⟩, ⟨none, 1⟩]

/-- The only node with the property has a value of its own, and the answer is no. -/
theorem isAllUnique_refuses_unique :
    Distribution singleValue ∧ (∀ v ∈ singleValue, v.value ≠ none → v.count = 1) ∧
      isAllUnique singleValue (nodesWithProperty singleValue) = false :=
  ⟨⟨by decide, by decide⟩, by decide, by decide⟩

end SchemaWalk.ValueCount
