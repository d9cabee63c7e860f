import Mathlib.Algebra.GroupWithZero.Nat
import SchemaWalk.Table

/-! # What a table holds

A look-up finds exactly the entry of its key, so a table is fixed by its look-ups. A table made of a
list answers with the last entry of a key. What the values of a table add up to changes by the value
that comes in and by the one it takes the place of. -/

namespace SchemaWalk.Table

variable {α β γ : Type} [Ord α]

theorem find_eq_none_of_lt {k : α} {l : List (α × β)} (h : ∀ e ∈ l, compare k e.1 = .lt) :
    find k l = none := by
  induction l with
  | nil => rfl
  | cons head rest ih =>
    have hhead : compare k head.1 ≠ .eq := by
      rw [h head List.mem_cons_self]
      decide
    rw [find, if_neg hhead]
    exact ih fun e he => h e (List.mem_cons_of_mem head he)

theorem find_append (k : α) (l l' : List (α × β)) :
    find k (l ++ l') = (find k l).or (find k l') := by
  induction l with
  | nil => rfl
  | cons head rest ih =>
    rw [List.cons_append, find, find, ih]
    split
    · rfl
    · rfl

theorem find_map (f : β → γ) (k : α) (l : List (α × β)) :
    find k (l.map fun e => (e.1, f e.2)) = (find k l).map f := by
  induction l with
  | nil => rfl
  | cons head rest ih =>
    rw [List.map_cons, find, find, ih]
    split
    · rfl
    · rfl

variable [Std.TransOrd α]

theorem nodup_entries (t : Table α β) : t.entries.Nodup := by
  apply t.increasing.imp
  rintro a b hlt rfl
  exact Std.OrientedCmp.not_lt_of_lt hlt hlt

variable [Std.LawfulEqOrd α]

omit [Std.TransOrd α] in
theorem find_singleton (k : α) (x : β) : find k [(k, x)] = some x := by
  rw [find, if_pos Std.ReflCmp.compare_self]

/-- No other entry of a table has the key. -/
theorem get?_of_mem {t : Table α β} {k : α} {x : β} (h : (k, x) ∈ t.entries) :
    t.get? k = some x := by
  obtain ⟨l, hl⟩ := t
  unfold get?
  induction l with
  | nil => cases h
  | cons head rest ih =>
    obtain ⟨j, y⟩ := head
    obtain ⟨hj, hrest⟩ := List.pairwise_cons.mp hl
    rcases List.mem_cons.mp h with heq | hmem
    · cases heq
      rw [find, if_pos Std.ReflCmp.compare_self]
    · have hgt : compare k j = .gt := Std.OrientedCmp.gt_of_lt (hj (k, x) hmem)
      have hne : compare k j ≠ .eq := by
        rw [hgt]
        decide
      rw [find, if_neg hne]
      exact ih hrest hmem

theorem get?_eq_some_iff {t : Table α β} {k : α} {x : β} :
    t.get? k = some x ↔ (k, x) ∈ t.entries :=
  ⟨mem_of_get?, get?_of_mem⟩

/-- Tables that answer every look-up alike are the same. -/
theorem ext_get? {s t : Table α β} (h : ∀ k, s.get? k = t.get? k) : s = t := by
  have hmem : ∀ e, e ∈ s.entries ↔ e ∈ t.entries := by
    intro e
    rw [← get?_eq_some_iff, ← get?_eq_some_iff, h]
  have hperm := (List.perm_ext_iff_of_nodup s.nodup_entries t.nodup_entries).mpr hmem
  apply ext_entries
  apply hperm.eq_of_pairwise _ s.increasing t.increasing
  intro a b _ _ hlt hgt
  exact absurd hgt (Std.OrientedCmp.not_lt_of_lt hlt)

/-! ## Tables made of lists -/

theorem get?_foldl_insert (l : List (α × β)) (t : Table α β) (k : α) :
    (l.foldl (fun t e => t.insert e.1 e.2) t).get? k = (find k l.reverse).or (t.get? k) := by
  induction l generalizing t with
  | nil => rfl
  | cons e rest ih =>
    obtain ⟨j, x⟩ := e
    rw [List.foldl_cons, ih, List.reverse_cons, find_append, Option.or_assoc]
    by_cases hkey : k = j
    · subst hkey
      rw [get?_insert_self, find_singleton]
      rfl
    · have hne : compare k j ≠ .eq := fun heq => hkey (Std.LawfulEqOrd.eq_of_compare heq)
      have hother : find k [(j, x)] = none := by
        rw [find, if_neg hne]
        rfl
      rw [get?_insert_of_ne t hkey, hother, Option.none_or]

/-- The last entry of a key wins. -/
theorem get?_ofList (l : List (α × β)) (k : α) : (ofList l).get? k = find k l.reverse := by
  rw [ofList, get?_foldl_insert, get?_empty, Option.or_none]

omit [Std.TransOrd α] in
theorem find_isSome_iff {k : α} {l : List (α × β)} :
    (find k l).isSome = true ↔ k ∈ l.map (·.1) := by
  induction l with
  | nil => simp [find]
  | cons head rest ih =>
    by_cases hkey : k = head.1
    · simp [find, hkey]
    · have hne : compare k head.1 ≠ .eq := fun heq => hkey (Std.LawfulEqOrd.eq_of_compare heq)
      rw [find, if_neg hne, ih, List.map_cons, List.mem_cons]
      simp [hkey]

omit [Std.TransOrd α] in
/-- Where no key is repeated, the order of the entries does not matter. -/
theorem find_eq_some_iff_of_nodup {k : α} {x : β} {l : List (α × β)} (h : (l.map (·.1)).Nodup) :
    find k l = some x ↔ (k, x) ∈ l := by
  induction l with
  | nil => simp [find]
  | cons head rest ih =>
    obtain ⟨j, y⟩ := head
    obtain ⟨hj, hrest⟩ := List.nodup_cons.mp h
    by_cases hkey : k = j
    · subst hkey
      have hnot : (k, x) ∉ rest := fun hmem => hj (List.mem_map.mpr ⟨_, hmem, rfl⟩)
      simp [find, hnot, eq_comm]
    · have hne : compare k j ≠ .eq := fun heq => hkey (Std.LawfulEqOrd.eq_of_compare heq)
      rw [find, if_neg hne, ih hrest, List.mem_cons]
      simp [hkey]

theorem get?_ofList_eq_some_iff {k : α} {x : β} {l : List (α × β)} (h : (l.map (·.1)).Nodup) :
    (ofList l).get? k = some x ↔ (k, x) ∈ l := by
  have hreverse : (l.reverse.map (·.1)).Nodup :=
    ((List.reverse_perm l).map _).nodup_iff.mpr h
  rw [get?_ofList, find_eq_some_iff_of_nodup hreverse, List.mem_reverse]

theorem mem_keys_ofList {k : α} {l : List (α × β)} : k ∈ (ofList l).keys ↔ k ∈ l.map (·.1) := by
  rw [keys, ← find_isSome_iff, ← find_isSome_iff]
  change ((ofList l).get? k).isSome = true ↔ _
  rw [get?_ofList, find_isSome_iff, find_isSome_iff, List.map_reverse, List.mem_reverse]

omit [Std.LawfulEqOrd α] in
theorem nodup_keys (t : Table α β) : t.keys.Nodup := by
  rw [keys, List.Nodup, List.pairwise_map]
  apply t.increasing.imp
  intro a b hlt heq
  rw [heq] at hlt
  exact Std.OrientedCmp.not_lt_of_lt hlt hlt

/-! ## Sums over the values -/

/-- What the value under a key counts for, nothing if there is none. -/
def share (weight : β → Nat) (found : Option β) : Nat := (found.map weight).getD 0

omit [Ord α] [Std.TransOrd α] [Std.LawfulEqOrd α] in
theorem share_eq (weight : β → Nat) {nothing : β} (h : weight nothing = 0) (found : Option β) :
    share weight found = weight (found.getD nothing) := by
  cases found with
  | none => exact h.symm
  | some x => rfl

omit [Std.LawfulEqOrd α] in
theorem sum_place (weight : β → Nat) (k : α) (x : β) {l : List (α × β)}
    (h : l.Pairwise fun a b => compare a.1 b.1 = .lt) :
    ((place k x l).map fun e => weight e.2).sum + share weight (find k l) =
      (l.map fun e => weight e.2).sum + weight x := by
  induction l with
  | nil => simp [place, find, share]
  | cons head rest ih =>
    obtain ⟨j, y⟩ := head
    obtain ⟨hj, hrest⟩ := List.pairwise_cons.mp h
    rw [place]
    split
    · next hlt =>
      have hbehind : ∀ e ∈ (j, y) :: rest, compare k e.1 = .lt := by
        intro e he
        rcases List.mem_cons.mp he with rfl | he
        · exact hlt
        · exact Std.TransCmp.lt_trans hlt (hj e he)
      rw [find_eq_none_of_lt hbehind]
      simp only [List.map_cons, List.sum_cons, share, Option.map_none, Option.getD_none]
      omega
    · next heq =>
      rw [find, if_pos heq]
      simp only [List.map_cons, List.sum_cons, share, Option.map_some, Option.getD_some]
      omega
    · next hgt =>
      have hne : compare k j ≠ .eq := by
        rw [hgt]
        decide
      have hsum := ih hrest
      rw [find, if_neg hne]
      simp only [List.map_cons, List.sum_cons]
      omega

omit [Std.LawfulEqOrd α] in
theorem sum_insert (weight : β → Nat) (t : Table α β) (k : α) (x : β) :
    ((t.insert k x).values.map weight).sum + share weight (t.get? k) =
      (t.values.map weight).sum + weight x := by
  have hplace := sum_place weight k x t.increasing
  simp only [values, insert, List.map_map]
  exact hplace

/-! ## Keys that are texts -/

omit [Ord α] [Std.TransOrd α] [Std.LawfulEqOrd α] in
theorem compare_eq_lt_iff {a b : String} : compare a b = .lt ↔ a < b := compareOfLessAndEq_eq_lt

omit [Ord α] [Std.TransOrd α] [Std.LawfulEqOrd α] in
theorem isLE_compare_iff {a b : String} : (compare a b).isLE = true ↔ a ≤ b :=
  isLE_compareOfLessAndEq String.le_antisymm String.not_le String.le_total

end SchemaWalk.Table
