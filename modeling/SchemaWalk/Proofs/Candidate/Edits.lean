import Mathlib.Data.List.Induction
import Mathlib.Data.List.InsertIdx
import SchemaWalk.Proofs.Candidate.Filters

/-! # Candidates and their edits

A candidate is made of a label by edits: filters are put and removed, and another label drops them
all. Of the puts of a name that still stand, the first decides where the filter is and the last
decides what it is. -/

namespace SchemaWalk.Candidate

/-- A filter that is put was let through by its constructor. -/
inductive Edit where
  | label (label : String)
  | filter (f : PropertyFilter) (made : ∃ name value, PropertyFilter.create name value = .ok f)
  | unfilter (index : Nat)

def edit (c : Candidate) : Edit → Candidate
  | .label label => c.withLabel label
  | .filter f _ => c.withFilter f
  | .unfilter index => c.withoutFilter index

/-- What becomes of a label without filters. -/
def edited (label : String) (edits : List Edit) : Candidate := edits.foldl edit (ofLabel label)

def names (c : Candidate) : List String := c.filters.map (·.name)

variable {c : Candidate} {label name : String} {edits : List Edit} {e : Edit}
  {f g : PropertyFilter} {fs : List PropertyFilter} {k : Nat}

@[simp] theorem edited_nil (label : String) : edited label [] = ofLabel label := rfl

@[simp] theorem edited_snoc (label : String) (edits : List Edit) (e : Edit) :
    edited label (edits ++ [e]) = (edited label edits).edit e := by
  rw [edited, List.foldl_append]
  rfl

/-! ## One edit -/

def Edit.Puts (f : PropertyFilter) : Edit → Prop
  | .filter g _ => g = f
  | .label _ | .unfilter _ => False

/-- The candidate has no filter of the name after the edit. -/
def Edit.Drops (c : Candidate) (name : String) : Edit → Prop
  | .label _ => True
  | .filter _ _ => False
  | .unfilter index => c.names[index]? = some name

theorem mem_putFilter_iff (h : (fs.map (·.name)).Nodup) :
    f ∈ putFilter g fs ↔ g = f ∨ f ∈ fs ∧ g.name ≠ f.name := by
  induction fs with
  | nil => simp [putFilter, eq_comm]
  | cons head rest ih =>
    obtain ⟨hhead, hrest⟩ := List.nodup_cons.mp h
    rw [putFilter]
    by_cases hname : head.name = g.name
    · have hother : f ∈ rest → g.name ≠ f.name := by
        intro hf heq
        exact hhead (List.mem_map.mpr ⟨f, hf, heq.symm.trans hname.symm⟩)
      rw [if_pos hname, List.mem_cons, List.mem_cons]
      constructor
      · rintro (rfl | hf)
        · exact .inl rfl
        · exact .inr ⟨.inr hf, hother hf⟩
      · rintro (rfl | ⟨rfl | hf, hne⟩)
        · exact .inl rfl
        · exact absurd hname.symm hne
        · exact .inr hf
    · rw [if_neg hname, List.mem_cons, ih hrest, List.mem_cons]
      constructor
      · rintro (rfl | rfl | ⟨hf, hne⟩)
        · exact .inr ⟨.inl rfl, Ne.symm hname⟩
        · exact .inl rfl
        · exact .inr ⟨.inr hf, hne⟩
      · rintro (rfl | ⟨rfl | hf, hne⟩)
        · exact .inr (.inl rfl)
        · exact .inl rfl
        · exact .inr (.inr ⟨hf, hne⟩)

@[simp] theorem names_withoutFilter (c : Candidate) (index : Nat) :
    (c.withoutFilter index).names = c.names.eraseIdx index :=
  (List.eraseIdx_map _ _ _).symm

theorem not_drops_of_mem_eraseIdx {index : Nat} (h : c.names.Nodup)
    (hname : name ∈ c.names.eraseIdx index) : ¬ (Edit.unfilter index).Drops c name := by
  obtain ⟨i, hne, hi⟩ := List.mem_eraseIdx_iff_getElem?.mp hname
  intro hindex
  obtain ⟨hlt, -⟩ := List.getElem?_eq_some_iff.mp hi
  exact hne ((List.getElem?_inj hlt h).mp (hi.trans (Eq.symm hindex)))

theorem mem_withoutFilter_iff {index : Nat} (h : c.names.Nodup) :
    f ∈ (c.withoutFilter index).filters ↔
      f ∈ c.filters ∧ ¬ (Edit.unfilter index).Drops c f.name := by
  constructor
  · intro hf
    have hname : f.name ∈ (c.withoutFilter index).names := List.mem_map_of_mem hf
    rw [names_withoutFilter] at hname
    exact ⟨List.mem_of_mem_eraseIdx hf, not_drops_of_mem_eraseIdx h hname⟩
  · rintro ⟨hf, hkept⟩
    obtain ⟨i, hi⟩ := List.mem_iff_getElem?.mp hf
    refine List.mem_eraseIdx_iff_getElem?.mpr ⟨i, ?_, hi⟩
    rintro rfl
    have hdrops : c.names[i]? = some f.name := by rw [names, List.getElem?_map, hi, Option.map_some]
    exact hkept hdrops

/-- A filter that was there is there still, unless its name is dropped or put again. -/
theorem mem_edit (h : c.names.Nodup) :
    f ∈ (c.edit e).filters ↔
      e.Puts f ∨ f ∈ c.filters ∧ ¬ e.Drops c f.name ∧ ∀ g, e.Puts g → g.name ≠ f.name := by
  cases e with
  | label label => simp [edit, withLabel, ofLabel, Edit.Puts, Edit.Drops]
  | filter g made =>
    simp only [Edit.Puts, Edit.Drops, not_false_eq_true, true_and, forall_eq']
    exact mem_putFilter_iff h
  | unfilter index =>
    simp only [Edit.Puts, false_or, false_implies, implies_true, and_true]
    exact mem_withoutFilter_iff h

theorem nodup_edit (h : c.names.Nodup) (e : Edit) : (c.edit e).names.Nodup := by
  cases e with
  | label label => exact List.Pairwise.nil
  | filter f made => exact nodup_putFilter f h
  | unfilter index =>
    rw [edit, names_withoutFilter]
    exact h.eraseIdx index

theorem mem_names_edit (h : c.names.Nodup) :
    name ∈ (c.edit e).names ↔
      (∃ f, e.Puts f ∧ f.name = name) ∨ name ∈ c.names ∧ ¬ e.Drops c name := by
  simp only [names, List.mem_map, mem_edit h]
  constructor
  · rintro ⟨f, hput | ⟨hmem, hkept, -⟩, rfl⟩
    · exact .inl ⟨f, hput, rfl⟩
    · exact .inr ⟨⟨f, hmem, rfl⟩, hkept⟩
  · rintro (⟨f, hput, rfl⟩ | ⟨⟨f, hmem, rfl⟩, hkept⟩)
    · exact ⟨f, .inl hput, rfl⟩
    -- the filter may be gone, but only for another of its name
    · by_cases hagain : ∃ g, e.Puts g ∧ g.name = f.name
      · obtain ⟨g, hput, hname⟩ := hagain
        exact ⟨g, .inl hput, hname⟩
      · refine ⟨f, .inr ⟨hmem, hkept, ?_⟩, rfl⟩
        intro g hput hname
        exact hagain ⟨g, hput, hname⟩

theorem nodup_edited (label : String) (edits : List Edit) : (edited label edits).names.Nodup := by
  induction edits using List.reverseRecOn with
  | nil => exact List.Pairwise.nil
  | append_singleton edits e ih =>
    rw [edited_snoc]
    exact nodup_edit ih e

theorem named_edited (label : String) (edits : List Edit) :
    NamedFilters (edited label edits).filters := by
  induction edits using List.reverseRecOn with
  | nil =>
    intro f hf
    cases hf
  | append_singleton edits e ih =>
    intro f hf
    rw [edited_snoc, mem_edit (nodup_edited label edits)] at hf
    rcases hf with hput | ⟨hmem, -⟩
    · cases e with
      | filter g made =>
        obtain rfl : g = f := hput
        obtain ⟨name, value, hcreate⟩ := made
        exact name_of_create hcreate
      | label label => exact hput.elim
      | unfilter index => exact hput.elim
    · exact ih f hmem

/-! ## Puts that stand -/

/-- The filter was put at a position, and its name was not dropped later. -/
structure Stands (label : String) (edits : List Edit) (k : Nat) (f : PropertyFilter) : Prop where
  put : ∃ e, edits[k]? = some e ∧ e.Puts f
  kept : ∀ j e, k < j → edits[j]? = some e → ¬ e.Drops (edited label (edits.take j)) f.name

theorem Stands.lt_length (h : Stands label edits k f) : k < edits.length := by
  obtain ⟨e, he, -⟩ := h.put
  exact (List.getElem?_eq_some_iff.mp he).1

theorem getElem?_snoc_cases {j : Nat} {e' : Edit} (h : (edits ++ [e])[j]? = some e') :
    edits[j]? = some e' ∨ j = edits.length ∧ e = e' := by
  by_cases hlt : j < edits.length
  · rw [List.getElem?_append_left hlt] at h
    exact .inl h
  · obtain ⟨hj, -⟩ := List.getElem?_eq_some_iff.mp h
    rw [List.length_append, List.length_singleton] at hj
    obtain rfl : j = edits.length := by omega
    rw [List.getElem?_concat_length] at h
    exact .inr ⟨rfl, Option.some.inj h⟩

theorem not_drops_of_puts (h : e.Puts f) : ¬ e.Drops c name := by
  cases e with
  | filter g made => exact id
  | label label => exact h.elim
  | unfilter index => exact h.elim

/-- One edit more: its own put stands, and so does every earlier one whose name it does not drop. -/
theorem stands_snoc :
    Stands label (edits ++ [e]) k f ↔ k = edits.length ∧ e.Puts f ∨
      Stands label edits k f ∧ ¬ e.Drops (edited label edits) f.name := by
  constructor
  · rintro ⟨⟨e', he', hput⟩, hkept⟩
    rcases getElem?_snoc_cases he' with hold | ⟨hk, rfl⟩
    · right
      have hlt : k < edits.length := (List.getElem?_eq_some_iff.mp hold).1
      refine ⟨⟨⟨e', hold, hput⟩, ?_⟩, ?_⟩
      · intro j d hj hd
        have hjlt : j < edits.length := (List.getElem?_eq_some_iff.mp hd).1
        have hdrops := hkept j d hj (by rw [List.getElem?_append_left hjlt, hd])
        rwa [List.take_append_of_le_length (Nat.le_of_lt hjlt)] at hdrops
      · have hdrops := hkept edits.length e hlt List.getElem?_concat_length
        rwa [List.take_left] at hdrops
    · exact .inl ⟨hk, hput⟩
  · rintro (⟨rfl, hput⟩ | ⟨h, hlast⟩)
    · refine ⟨⟨e, List.getElem?_concat_length, hput⟩, ?_⟩
      intro j d hj hd
      obtain ⟨hlt, -⟩ := List.getElem?_eq_some_iff.mp hd
      rw [List.length_append, List.length_singleton] at hlt
      omega
    · obtain ⟨e', he', hput⟩ := h.put
      refine ⟨⟨e', by rw [List.getElem?_append_left h.lt_length, he'], hput⟩, ?_⟩
      intro j d hj hd
      rcases getElem?_snoc_cases hd with hold | ⟨rfl, rfl⟩
      · have hjlt : j < edits.length := (List.getElem?_eq_some_iff.mp hold).1
        rw [List.take_append_of_le_length (Nat.le_of_lt hjlt)]
        exact h.kept j d hj hold
      · rwa [List.take_left]

/-- A name is there just when a put of it stands: nothing else is lost. -/
theorem mem_names_edited_iff :
    name ∈ (edited label edits).names ↔ ∃ k f, Stands label edits k f ∧ f.name = name := by
  induction edits using List.reverseRecOn with
  | nil =>
    simp only [edited_nil]
    constructor
    · intro h
      cases h
    · rintro ⟨k, f, h, -⟩
      exact absurd h.lt_length (Nat.not_lt_zero k)
  | append_singleton edits e ih =>
    rw [edited_snoc, mem_names_edit (nodup_edited label edits), ih]
    constructor
    · rintro (⟨f, hput, hname⟩ | ⟨⟨k, f, h, rfl⟩, hkept⟩)
      · exact ⟨edits.length, f, stands_snoc.mpr (.inl ⟨rfl, hput⟩), hname⟩
      · exact ⟨k, f, stands_snoc.mpr (.inr ⟨h, hkept⟩), rfl⟩
    · rintro ⟨k, f, h, rfl⟩
      rcases stands_snoc.mp h with ⟨-, hput⟩ | ⟨h, hkept⟩
      · exact .inl ⟨f, hput, rfl⟩
      · exact .inr ⟨⟨k, f, h, rfl⟩, hkept⟩

/-! ## The last put -/

structure LastPut (label : String) (edits : List Edit) (k : Nat) (f : PropertyFilter) : Prop where
  stands : Stands label edits k f
  last : ∀ j g, Stands label edits j g → g.name = f.name → j ≤ k

theorem lastPut_snoc :
    LastPut label (edits ++ [e]) k f ↔ k = edits.length ∧ e.Puts f ∨
      LastPut label edits k f ∧ ¬ e.Drops (edited label edits) f.name ∧
        ∀ g, e.Puts g → g.name ≠ f.name := by
  constructor
  · rintro ⟨hstands, hlast⟩
    rcases stands_snoc.mp hstands with hnew | ⟨h, hkept⟩
    · exact .inl hnew
    · right
      refine ⟨⟨h, ?_⟩, hkept, ?_⟩
      · intro j g hg hname
        exact hlast j g (stands_snoc.mpr (.inr ⟨hg, hname ▸ hkept⟩)) hname
      · intro g hput hname
        have hle := hlast edits.length g (stands_snoc.mpr (.inl ⟨rfl, hput⟩)) hname
        have hlt := h.lt_length
        omega
  · rintro (⟨rfl, hput⟩ | ⟨⟨h, hlast⟩, hkept, hother⟩)
    · refine ⟨stands_snoc.mpr (.inl ⟨rfl, hput⟩), ?_⟩
      intro j g hg _
      have hlt := hg.lt_length
      rw [List.length_append, List.length_singleton] at hlt
      omega
    · refine ⟨stands_snoc.mpr (.inr ⟨h, hkept⟩), ?_⟩
      intro j g hg hname
      rcases stands_snoc.mp hg with ⟨-, hput⟩ | ⟨hg, -⟩
      · exact absurd hname (hother g hput)
      · exact hlast j g hg hname

theorem mem_edited_iff : f ∈ (edited label edits).filters ↔ ∃ k, LastPut label edits k f := by
  induction edits using List.reverseRecOn with
  | nil =>
    constructor
    · intro h
      cases h
    · rintro ⟨k, h⟩
      exact absurd h.stands.lt_length (Nat.not_lt_zero k)
  | append_singleton edits e ih =>
    rw [edited_snoc, mem_edit (nodup_edited label edits), ih]
    simp only [lastPut_snoc]
    constructor
    · rintro (hput | ⟨⟨k, h⟩, hrest⟩)
      · exact ⟨edits.length, .inl ⟨rfl, hput⟩⟩
      · exact ⟨k, .inr ⟨h, hrest⟩⟩
    · rintro ⟨k, ⟨-, hput⟩ | ⟨h, hrest⟩⟩
      · exact .inl hput
      · exact .inr ⟨⟨k, h⟩, hrest⟩

/-! ## The first put -/

structure FirstPut (label : String) (edits : List Edit) (k : Nat) (name : String) : Prop where
  stands : ∃ f, Stands label edits k f ∧ f.name = name
  first : ∀ j f, Stands label edits j f → f.name = name → k ≤ j

theorem FirstPut.lt_length (h : FirstPut label edits k name) : k < edits.length := by
  obtain ⟨f, hf, -⟩ := h.stands
  exact hf.lt_length

theorem FirstPut.snoc (h : FirstPut label edits k name)
    (hkept : ¬ e.Drops (edited label edits) name) : FirstPut label (edits ++ [e]) k name := by
  obtain ⟨f, hf, rfl⟩ := h.stands
  refine ⟨⟨f, stands_snoc.mpr (.inr ⟨hf, hkept⟩), rfl⟩, ?_⟩
  intro j g hg hname
  rcases stands_snoc.mp hg with ⟨rfl, -⟩ | ⟨hg, -⟩
  · exact Nat.le_of_lt h.lt_length
  · exact h.first j g hg hname

theorem firstPut_new (hput : e.Puts f) (hnew : f.name ∉ (edited label edits).names) :
    FirstPut label (edits ++ [e]) edits.length f.name := by
  refine ⟨⟨f, stands_snoc.mpr (.inl ⟨rfl, hput⟩), rfl⟩, ?_⟩
  intro j g hg hname
  rcases stands_snoc.mp hg with ⟨rfl, -⟩ | ⟨hg, -⟩
  · exact Nat.le_refl _
  · exact absurd (mem_names_edited_iff.mpr ⟨j, g, hg, hname⟩) hnew

theorem exists_firstPut (h : name ∈ (edited label edits).names) :
    ∃ k, FirstPut label edits k name := by
  induction edits using List.reverseRecOn with
  | nil => cases h
  | append_singleton edits e ih =>
    rw [edited_snoc, mem_names_edit (nodup_edited label edits)] at h
    by_cases hold : name ∈ (edited label edits).names
    · obtain ⟨k, hk⟩ := ih hold
      have hkept : ¬ e.Drops (edited label edits) name := by
        rcases h with ⟨f, hput, -⟩ | ⟨-, hkept⟩
        · exact not_drops_of_puts hput
        · exact hkept
      exact ⟨k, hk.snoc hkept⟩
    · rcases h with ⟨f, hput, rfl⟩ | ⟨hmem, -⟩
      · exact ⟨edits.length, firstPut_new hput hold⟩
      · exact absurd hmem hold

/-- One name was put before another, counting from when they were last dropped. -/
def PutBefore (label : String) (edits : List Edit) (a b : String) : Prop :=
  ∃ i j, FirstPut label edits i a ∧ FirstPut label edits j b ∧ i < j

theorem PutBefore.snoc {a b : String} (h : PutBefore label edits a b)
    (ha : ¬ e.Drops (edited label edits) a) (hb : ¬ e.Drops (edited label edits) b) :
    PutBefore label (edits ++ [e]) a b := by
  obtain ⟨i, j, hi, hj, hlt⟩ := h
  exact ⟨i, j, hi.snoc ha, hj.snoc hb, hlt⟩

theorem pairwise_names_edited (label : String) (edits : List Edit) :
    (edited label edits).names.Pairwise (PutBefore label edits) := by
  induction edits using List.reverseRecOn with
  | nil => exact .nil
  | append_singleton edits e ih =>
    rw [edited_snoc]
    cases e with
    | label label => exact .nil
    | filter f made =>
      have hkept : ∀ {a b}, PutBefore label edits a b →
          PutBefore label (edits ++ [.filter f made]) a b := fun h => h.snoc id id
      have hnames := names_putFilter f (edited label edits).filters
      change ((putFilter f (edited label edits).filters).map (·.name)).Pairwise _
      rw [hnames]
      -- the name keeps its place if it is there already, and goes behind all others if it is new
      split
      · exact ih.imp hkept
      · next hnew =>
        refine List.pairwise_append.mpr ⟨ih.imp hkept, List.pairwise_singleton _ _, ?_⟩
        intro a ha b hb
        obtain ⟨k, hk⟩ := exists_firstPut ha
        rw [List.mem_singleton.mp hb]
        exact ⟨k, edits.length, hk.snoc id, firstPut_new rfl hnew, hk.lt_length⟩
    | unfilter index =>
      have hnodup := nodup_edited label edits
      have hrest := ih.sublist ((edited label edits).names.eraseIdx_sublist index)
      rw [edit, names_withoutFilter]
      exact hrest.imp_of_mem fun ha hb h =>
        h.snoc (not_drops_of_mem_eraseIdx hnodup ha) (not_drops_of_mem_eraseIdx hnodup hb)

/-! ## The filters as a map -/

theorem putFilter_of_getElem? {index : Nat} (h : (fs.map (·.name)).Nodup)
    (hindex : (fs.map (·.name))[index]? = some f.name) : putFilter f fs = fs.set index f := by
  induction fs generalizing index with
  | nil => cases hindex
  | cons head rest ih =>
    obtain ⟨hhead, hrest⟩ := List.nodup_cons.mp h
    rw [putFilter]
    cases index with
    | zero =>
      have hname : head.name = f.name := Option.some.inj hindex
      rw [if_pos hname, List.set_cons_zero]
    | succ index =>
      have hindex : (rest.map (·.name))[index]? = some f.name := hindex
      have hname : head.name ≠ f.name := by
        intro heq
        have hmem : f.name ∈ rest.map (·.name) := List.mem_of_getElem? hindex
        rw [← heq] at hmem
        exact hhead hmem
      rw [if_neg hname, List.set_cons_succ, ih hrest hindex]

/-- Names are never empty and never repeated. Each comes with the filter that was put last, and
they stand in the order in which they were put first, counting from when they were last dropped. -/
structure OrderedByName (label : String) (edits : List Edit) : Prop where
  named : ∀ f ∈ (edited label edits).filters, f.name ≠ ""
  distinct : ((edited label edits).filters.map (·.name)).Nodup
  latest : ∀ f, f ∈ (edited label edits).filters ↔ ∃ k, LastPut label edits k f
  kept : ∀ k f, Stands label edits k f → f.name ∈ (edited label edits).filters.map (·.name)
  order : ((edited label edits).filters.map (·.name)).Pairwise (PutBefore label edits)
  replaced : ∀ f index, ((edited label edits).filters.map (·.name))[index]? = some f.name →
    ((edited label edits).withFilter f).filters = (edited label edits).filters.set index f
  added : ∀ f, f.name ∉ (edited label edits).filters.map (·.name) →
    ((edited label edits).withFilter f).filters = (edited label edits).filters ++ [f]
  removed : ∀ index, ((edited label edits).withoutFilter index).filters =
    (edited label edits).filters.take index ++ (edited label edits).filters.drop (index + 1)
  pastEnd : ∀ index, (edited label edits).filters.length ≤ index →
    (edited label edits).withoutFilter index = edited label edits

theorem orderedByName (label : String) (edits : List Edit) : OrderedByName label edits where
  named := named_edited label edits
  distinct := nodup_edited label edits
  latest _ := mem_edited_iff
  kept k f h := mem_names_edited_iff.mpr ⟨k, f, h, rfl⟩
  order := pairwise_names_edited label edits
  replaced _ _ h := putFilter_of_getElem? (nodup_edited label edits) h
  added _ h := putFilter_of_new h
  removed index := List.eraseIdx_eq_take_drop_succ _ index
  pastEnd _ h := by
    rw [withoutFilter, List.eraseIdx_of_length_le h]

end SchemaWalk.Candidate
