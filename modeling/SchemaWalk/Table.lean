/-! # Tables

A table keeps one value per key, in increasing key order. The order is part of the
type, so two tables that answer every lookup alike are the same table. -/

namespace SchemaWalk

/-- Entries in strictly increasing key order. -/
structure Table (α β : Type) [Ord α] where
  entries : List (α × β)
  increasing : entries.Pairwise (fun a b => compare a.1 b.1 = .lt)

namespace Table

variable {α β γ : Type} [Ord α]

instance [DecidableEq α] [DecidableEq β] : DecidableEq (Table α β) := fun s t =>
  if h : s.entries = t.entries then
    isTrue (by cases s; cases t; cases h; rfl)
  else isFalse (fun hst => h (hst ▸ rfl))

theorem ext_entries {s t : Table α β} (h : s.entries = t.entries) : s = t := by
  cases s; cases t; cases h; rfl

def empty : Table α β := ⟨[], .nil⟩

instance : EmptyCollection (Table α β) := ⟨empty⟩
instance : Inhabited (Table α β) := ⟨empty⟩

def isEmpty (t : Table α β) : Bool := t.entries.isEmpty
def size (t : Table α β) : Nat := t.entries.length
def keys (t : Table α β) : List α := t.entries.map (·.1)
def values (t : Table α β) : List β := t.entries.map (·.2)

def find (k : α) : List (α × β) → Option β
  | [] => none
  | (j, x) :: rest => if compare k j = .eq then some x else find k rest

def get? (t : Table α β) (k : α) : Option β := find k t.entries

def place (k : α) (x : β) : List (α × β) → List (α × β)
  | [] => [(k, x)]
  | (j, y) :: rest =>
    match compare k j with
    | .lt => (k, x) :: (j, y) :: rest
    | .eq => (k, x) :: rest
    | .gt => (j, y) :: place k x rest

theorem mem_place {k : α} {x : β} {e : α × β} {l : List (α × β)} (h : e ∈ place k x l) :
    e = (k, x) ∨ e ∈ l := by
  induction l with
  | nil => exact .inl (by simpa [place] using h)
  | cons head rest ih =>
    obtain ⟨j, y⟩ := head
    rw [place] at h
    split at h
    · exact (List.mem_cons.1 h).imp id id
    · exact (List.mem_cons.1 h).imp id (List.mem_cons_of_mem _)
    · rcases List.mem_cons.1 h with rfl | h
      · exact .inr List.mem_cons_self
      · exact (ih h).imp id (List.mem_cons_of_mem _)

variable [Std.TransOrd α]

theorem place_increasing (k : α) (x : β) {l : List (α × β)}
    (h : l.Pairwise (fun a b => compare a.1 b.1 = .lt)) :
    (place k x l).Pairwise (fun a b => compare a.1 b.1 = .lt) := by
  induction l with
  | nil => simp [place]
  | cons head rest ih =>
    obtain ⟨j, y⟩ := head
    obtain ⟨hj, hrest⟩ := List.pairwise_cons.1 h
    rw [place]
    split
    · next hlt =>
      refine List.pairwise_cons.2 ⟨fun e he => ?_, h⟩
      rcases List.mem_cons.1 he with rfl | he
      · exact hlt
      · exact Std.TransCmp.lt_trans hlt (hj e he)
    · next heq =>
      exact List.pairwise_cons.2
        ⟨fun e he => (Std.TransCmp.congr_left heq).trans (hj e he), hrest⟩
    · next hgt =>
      refine List.pairwise_cons.2 ⟨fun e he => ?_, ih hrest⟩
      rcases mem_place he with rfl | he
      · exact Std.OrientedCmp.lt_of_gt hgt
      · exact hj e he

def insert (t : Table α β) (k : α) (x : β) : Table α β :=
  ⟨place k x t.entries, place_increasing k x t.increasing⟩

omit [Std.TransOrd α] in
def erase (t : Table α β) (k : α) : Table α β :=
  ⟨t.entries.filter (fun e => compare k e.1 != .eq), t.increasing.filter _⟩

/-- Later entries win. -/
def ofList (l : List (α × β)) : Table α β := l.foldl (fun t e => t.insert e.1 e.2) ∅

omit [Std.TransOrd α] in
def map (f : β → γ) (t : Table α β) : Table α γ :=
  ⟨t.entries.map (fun e => (e.1, f e.2)), List.pairwise_map.2 t.increasing⟩

theorem find_place_self (k : α) (x : β) (l : List (α × β)) : find k (place k x l) = some x := by
  induction l with
  | nil => simp [place, find]
  | cons head rest ih =>
    obtain ⟨j, y⟩ := head
    rw [place]
    split
    · simp [find]
    · simp [find]
    · next hgt => simp [find, hgt, ih]

omit [Std.TransOrd α] in
@[simp] theorem get?_empty (k : α) : (∅ : Table α β).get? k = none := rfl

omit [Std.TransOrd α] in
theorem find_filter_self (k : α) (l : List (α × β)) :
    find k (l.filter fun e => compare k e.1 != .eq) = none := by
  induction l with
  | nil => rfl
  | cons head rest ih =>
    obtain ⟨j, y⟩ := head
    by_cases h : compare k j = .eq
    · simp [h, ih]
    · simp [find, h, ih]

omit [Std.TransOrd α] in
@[simp] theorem get?_erase_self (t : Table α β) (k : α) : (t.erase k).get? k = none :=
  find_filter_self k t.entries

@[simp] theorem get?_insert_self (t : Table α β) (k : α) (x : β) :
    (t.insert k x).get? k = some x := find_place_self k x t.entries

omit [Std.TransOrd α] in
theorem map_place (f : β → γ) (k : α) (x : β) (l : List (α × β)) :
    (place k x l).map (fun e => (e.1, f e.2)) = place k (f x) (l.map fun e => (e.1, f e.2)) := by
  induction l with
  | nil => rfl
  | cons head rest ih =>
    obtain ⟨j, y⟩ := head
    simp only [List.map_cons, place]
    cases compare k j with
    | lt => rfl
    | eq => rfl
    | gt => simp only [List.map_cons, ih]

theorem map_insert (f : β → γ) (t : Table α β) (k : α) (x : β) :
    (t.insert k x).map f = (t.map f).insert k (f x) :=
  ext_entries (map_place f k x t.entries)

variable [Std.LawfulEqOrd α]

omit [Std.TransOrd α] in
theorem find_place_of_ne {k j : α} (h : k ≠ j) (x : β) (l : List (α × β)) :
    find k (place j x l) = find k l := by
  have hc : compare k j ≠ .eq := fun he => h (Std.LawfulEqOrd.eq_of_compare he)
  induction l with
  | nil => simp [place, find, hc]
  | cons head rest ih =>
    obtain ⟨i, y⟩ := head
    rw [place]
    split
    · simp [find, hc]
    · next heq =>
      obtain rfl := Std.LawfulEqOrd.eq_of_compare heq
      simp [find, hc]
    · simp [find, ih]

omit [Std.TransOrd α] in
theorem find_filter_ne {k j : α} (h : k ≠ j) (l : List (α × β)) :
    find k (l.filter fun e => compare j e.1 != .eq) = find k l := by
  induction l with
  | nil => rfl
  | cons head rest ih =>
    obtain ⟨i, y⟩ := head
    by_cases hj : compare j i = .eq
    · obtain rfl := Std.LawfulEqOrd.eq_of_compare hj
      have hk : compare k j ≠ .eq := fun he => h (Std.LawfulEqOrd.eq_of_compare he)
      simp [find, hk, ih]
    · simp [find, hj, ih]

omit [Std.TransOrd α] in
theorem get?_erase_of_ne (t : Table α β) {k j : α} (h : k ≠ j) :
    (t.erase j).get? k = t.get? k := find_filter_ne h t.entries

theorem get?_insert_of_ne (t : Table α β) {k j : α} (h : k ≠ j) (x : β) :
    (t.insert j x).get? k = t.get? k := find_place_of_ne h x t.entries

omit [Std.TransOrd α] in
theorem mem_of_get? {t : Table α β} {k : α} {x : β} (h : t.get? k = some x) :
    (k, x) ∈ t.entries := by
  unfold get? at h
  generalize t.entries = l at h
  induction l with
  | nil => cases h
  | cons head rest ih =>
    obtain ⟨j, y⟩ := head
    rw [find] at h
    split at h
    · next heq =>
      obtain rfl := Std.LawfulEqOrd.eq_of_compare heq
      cases h
      exact List.mem_cons_self
    · exact List.mem_cons_of_mem _ (ih h)

end Table

end SchemaWalk
