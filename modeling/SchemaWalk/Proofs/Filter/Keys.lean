import SchemaWalk.Filter
import SchemaWalk.Proofs.Table.Contents

/-! # Filter sets as keys

The filters of a property map stand in the order of their names, so maps that differ in the property
without a name alone ask for the same. Filter sets are compared filter by filter, and none but the
set itself compares equal to it: a table keyed by filter sets has one place for each. -/

namespace SchemaWalk

/-- What a comparison must be for a table to be keyed by it. -/
structure TotalOrder {α : Type} (cmp : α → α → Ordering) : Prop where
  eq_iff : ∀ a b, cmp a b = .eq ↔ a = b
  antisymm : ∀ a b, (cmp a b).isLE = true → (cmp b a).isLE = true → a = b
  trans : ∀ a b c, (cmp a b).isLE = true → (cmp b c).isLE = true → (cmp a c).isLE = true
  total : ∀ a b, (cmp a b).isLE = true ∨ (cmp b a).isLE = true

theorem totalOrder_compare {α : Type} [Ord α] [Std.TransOrd α] [Std.LawfulEqOrd α] :
    TotalOrder (compare : α → α → Ordering) where
  eq_iff _ _ := Std.LawfulEqOrd.compare_eq_iff_eq
  antisymm _ _ hle hge := Std.LawfulEqOrd.eq_of_compare (Std.OrientedCmp.isLE_antisymm hle hge)
  trans _ _ _ hab hbc := Std.TransCmp.isLE_trans hab hbc
  total a b := by
    have hswap : compare b a = (compare a b).swap := Std.OrientedCmp.eq_swap
    rw [hswap]
    cases compare a b <;> simp

/-! ## Filters -/

namespace PropertyFilter

/-- By names first, then by values: there is one operator only. -/
def Before (f g : PropertyFilter) : Prop := f.name < g.name ∨ f.name = g.name ∧ f.value < g.value

theorem order_eq_lt_iff {f g : PropertyFilter} : compare f g = .lt ↔ f.Before g := by
  have hcompare : compare f g = (compare f.name g.name).then (compare f.value g.value) := rfl
  rw [hcompare, Ordering.then_eq_lt, Table.compare_eq_lt_iff, Table.compare_eq_lt_iff,
    Std.LawfulEqOrd.compare_eq_iff_eq]
  rfl

end PropertyFilter

namespace FilterSet

/-! ## Sets -/

theorem compare_eq_lt_iff_lex {a b : FilterSet} :
    compare a b = .lt ↔ List.Lex PropertyFilter.Before a.filters b.filters := by
  obtain ⟨fs⟩ := a
  obtain ⟨gs⟩ := b
  change compare fs gs = .lt ↔ List.Lex PropertyFilter.Before fs gs
  induction fs generalizing gs with
  | nil =>
    cases gs with
    | nil => simp
    | cons g gs => simp
  | cons f fs ih =>
    cases gs with
    | nil => simp
    | cons g gs =>
      rw [List.compare_cons_cons, Ordering.then_eq_lt, PropertyFilter.order_eq_lt_iff,
        Std.LawfulEqOrd.compare_eq_iff_eq, ih, List.cons_lex_cons_iff]

/-- An initial part is smaller than the whole. -/
theorem compare_prefix (fs : List PropertyFilter) {more : List PropertyFilter} (h : more ≠ []) :
    compare (⟨fs⟩ : FilterSet) ⟨fs ++ more⟩ = .lt := by
  rw [compare_eq_lt_iff_lex]
  induction fs with
  | nil =>
    cases more with
    | nil => exact absurd rfl h
    | cons f more => exact .nil
  | cons f fs ih => exact .cons ih

/-! ## Sets of property maps -/

/-- The maps have the same properties with a name. -/
def Agree (p q : Properties) : Prop := ∀ name, name ≠ "" → p.get? name = q.get? name

theorem mem_ofProperties {props : Properties} {f : PropertyFilter} :
    f ∈ (ofProperties props).filters ↔
      f.name ≠ "" ∧ f.operator = .equality ∧ props.get? f.name = some f.value := by
  rw [Table.get?_eq_some_iff, ofProperties, List.mem_map]
  constructor
  · rintro ⟨⟨key, value⟩, hentry, rfl⟩
    obtain ⟨hmem, hkey⟩ := List.mem_filter.mp hentry
    exact ⟨by simpa using hkey, rfl, hmem⟩
  · rintro ⟨hname, hoperator, hmem⟩
    refine ⟨(f.name, f.value), List.mem_filter.mpr ⟨hmem, by simpa using hname⟩, ?_⟩
    rw [← hoperator]

theorem increasing_ofProperties (props : Properties) :
    (ofProperties props).filters.Pairwise fun f g => f.name < g.name := by
  rw [ofProperties, List.pairwise_map]
  apply (props.increasing.filter _).imp
  intro a b hlt
  exact Table.compare_eq_lt_iff.mp hlt

theorem agree_of_ofProperties_eq {p q : Properties} (h : ofProperties p = ofProperties q) :
    Agree p q := by
  intro name hname
  apply Option.ext
  intro value
  have hfilter := @mem_ofProperties p ⟨name, .equality, value⟩
  rw [h, mem_ofProperties] at hfilter
  simpa [hname] using hfilter.symm

/-- The filters are the same then, and their names leave no choice as to their order. -/
theorem ofProperties_eq_of_agree {p q : Properties} (h : Agree p q) :
    ofProperties p = ofProperties q := by
  have hmem : ∀ f, f ∈ (ofProperties p).filters ↔ f ∈ (ofProperties q).filters := by
    intro f
    rw [mem_ofProperties, mem_ofProperties]
    refine and_congr_right fun hname => ?_
    rw [h f.name hname]
  have hnodup : ∀ props, (ofProperties props).filters.Nodup := by
    intro props
    apply (increasing_ofProperties props).imp
    rintro f g hlt rfl
    exact String.lt_irrefl _ hlt
  have hperm := (List.perm_ext_iff_of_nodup (hnodup p) (hnodup q)).mpr hmem
  have hfilters : (ofProperties p).filters = (ofProperties q).filters := by
    apply hperm.eq_of_pairwise _ (increasing_ofProperties p) (increasing_ofProperties q)
    intro f g _ _ hlt hgt
    exact absurd hgt (String.lt_asymm hlt)
  exact congrArg FilterSet.mk hfilters

theorem ofProperties_eq_iff {p q : Properties} : ofProperties p = ofProperties q ↔ Agree p q :=
  ⟨agree_of_ofProperties_eq, ofProperties_eq_of_agree⟩

/-- Property maps make the same key just when they agree on every property with a name. Keys are in
a total order in which only equal ones are equal, so a value is found under the maps that agree with
the one it was put under, and it hides no other value. -/
theorem faithful_keys :
    (∀ p q : Properties, ofProperties p = ofProperties q ↔ Agree p q) ∧
    (∀ p : Properties, ((ofProperties p).filters.Pairwise fun f g => f.name < g.name) ∧
      ∀ f, f ∈ (ofProperties p).filters ↔
        f.name ≠ "" ∧ f.operator = .equality ∧ p.get? f.name = some f.value) ∧
    TotalOrder (compare : FilterSet → FilterSet → Ordering) ∧
    (∀ a b : FilterSet,
      compare a b = .lt ↔ List.Lex PropertyFilter.Before a.filters b.filters) ∧
    (∀ fs more, more ≠ [] → compare (⟨fs⟩ : FilterSet) ⟨fs ++ more⟩ = .lt) ∧
    ∀ (β : Type) (t : Table FilterSet β) (p q : Properties) (x : β),
      (Agree p q → (t.insert (ofProperties p) x).get? (ofProperties q) = some x) ∧
      (¬ Agree p q →
        (t.insert (ofProperties p) x).get? (ofProperties q) = t.get? (ofProperties q)) := by
  refine ⟨fun _ _ => ofProperties_eq_iff,
    fun p => ⟨increasing_ofProperties p, fun _ => mem_ofProperties⟩, totalOrder_compare,
    fun _ _ => compare_eq_lt_iff_lex, fun fs _ => compare_prefix fs, ?_⟩
  intro β t p q x
  constructor
  · intro hagree
    rw [ofProperties_eq_of_agree hagree, Table.get?_insert_self]
  · intro hdiffer
    apply Table.get?_insert_of_ne
    intro heq
    exact hdiffer (agree_of_ofProperties_eq heq.symm)

def since2020 : Properties := .ofList [("since", "2020")]

/-- It has a property without a name too. -/
def named2020 : Properties := .ofList [("", "gone"), ("since", "2020")]

def since2021 : Properties := .ofList [("since", "2021")]

theorem faithful_keys_since :
    Agree since2020 named2020 ∧ ¬ Agree since2020 since2021 ∧
    [(⟨"until", .equality, "2030"⟩ : PropertyFilter)] ≠ [] ∧
    compare (⟨[⟨"since", .equality, "2020"⟩]⟩ : FilterSet)
      ⟨[⟨"since", .equality, "2020"⟩, ⟨"until", .equality, "2030"⟩]⟩ = .lt ∧
    ((∅ : Table FilterSet Nat).insert (ofProperties since2020) 7).get? (ofProperties named2020) =
      some 7 ∧
    ((∅ : Table FilterSet Nat).insert (ofProperties since2020) 7).get? (ofProperties since2021) =
      none := by
  obtain ⟨hkeys, -, -, -, hprefix, htables⟩ := faithful_keys
  have hagree : Agree since2020 named2020 := (hkeys _ _).mp (by decide +kernel)
  have hdiffer : ¬ Agree since2020 since2021 := by
    rw [← hkeys]
    decide +kernel
  have hmore : [(⟨"until", .equality, "2030"⟩ : PropertyFilter)] ≠ [] := List.cons_ne_nil _ _
  exact ⟨hagree, hdiffer, hmore, hprefix _ _ hmore, (htables Nat ∅ _ _ 7).1 hagree,
    (htables Nat ∅ _ _ 7).2 hdiffer⟩

end FilterSet

end SchemaWalk
