import Mathlib.Data.List.Forall2
import SchemaWalk.Proofs.Ron.Laid
import SchemaWalk.Snapshot

/-! # The values of a walk

A walk can stand in a document in more ways than the writer has: fields in any order, records with
their names or without, empty filters and the only operator left out. All of them can be laid out as
text, and all are taken for the same walk. -/

namespace SchemaWalk

open Ron

/-! ## Records -/

/-- A record of a type, with its name or without, its fields in any order. -/
inductive RecordOf (typeName : String) (fields : List (String × RonValue)) : RonValue → Prop where
  | unnamed {written} : written.Perm fields → RecordOf typeName fields (.record none written)
  | named {written} : written.Perm fields →
      RecordOf typeName fields (.record (some typeName) written)

variable {typeName : String} {fields written : List (String × RonValue)} {x : RonValue}

/-- Type and keys are words, so a record is regular as far as its values are. -/
theorem RecordOf.regular {n : Nat} (h : RecordOf typeName fields x)
    (hname : typeName ∈ snapshotWords) (hne : fields ≠ [])
    (hkeys : ∀ f ∈ fields, f.1 ∈ snapshotWords) (hvalues : ∀ f ∈ fields, Regular n f.2) :
    Regular (n + 1) x := by
  have hrecord : ∀ {label written}, written.Perm fields → (∀ w, label = some w → w = typeName) →
      Regular (n + 1) (.record label written) := by
    intro label written hperm hlabel
    apply Regular.record
    · intro w hw
      rw [hlabel w hw]
      exact isWord_of_mem typeName hname
    · exact fun hnil => hne (List.nil_perm.mp (hnil ▸ hperm))
    · exact fun f hf => isWord_of_mem f.1 (hkeys f (hperm.mem_iff.mp hf))
    · exact fun f hf => hvalues f (hperm.mem_iff.mp hf)
  cases h with
  | unnamed hperm => exact hrecord hperm (by simp)
  | named hperm => exact hrecord hperm (by simp)

theorem RecordOf.fieldsOf (h : RecordOf typeName fields x) :
    ∃ written, fieldsOf [] typeName x = some written ∧ written.Perm fields := by
  cases h with
  | unnamed hperm => exact ⟨_, by simp [Ron.fieldsOf, Attributes.has], hperm⟩
  | named hperm => exact ⟨_, by simp [Ron.fieldsOf], hperm⟩

/-- A field is found wherever it stands, and a field that stands twice is refused. -/
theorem optionalField_perm (h : written.Perm fields) (key : String) :
    optionalField written key = optionalField fields key := by
  have hfilter := h.filter fun f => f.1 == key
  unfold optionalField
  generalize written.filter (fun f => f.1 == key) = fs at hfilter ⊢
  generalize fields.filter (fun f => f.1 == key) = gs at hfilter ⊢
  match fs with
  | [] => rw [List.nil_perm.mp hfilter]
  | [f] => rw [List.singleton_perm.mp hfilter]
  | _ :: _ :: _ =>
    match gs with
    | [] => simp at hfilter
    | [_] => simp at hfilter
    | _ :: _ :: _ => rfl

theorem requiredField_perm (h : written.Perm fields) (key : String) :
    requiredField written key = requiredField fields key := by
  rw [requiredField, requiredField, optionalField_perm h]

/-! ## The values of each type -/

inductive PropertyFilter.Form (f : PropertyFilter) : RonValue → Prop where
  | full {x : RonValue} : RecordOf "PropertySelection"
      [("name", .string f.name), ("operator", f.operator.toRon), ("value", .string f.value)] x →
      f.Form x
  /-- Equality is what a missing operator stands for. -/
  | short {x : RonValue} : f.operator = .equality →
      RecordOf "PropertySelection" [("name", .string f.name), ("value", .string f.value)] x →
      f.Form x

/-- The field of filters, which may be missing when there are none. -/
inductive FiltersForm : List PropertyFilter → List (String × RonValue) → Prop where
  | full {fs xs} : List.Forall₂ PropertyFilter.Form fs xs →
      FiltersForm fs [("properties", .list xs)]
  | short : FiltersForm [] []

def RelationshipPick.Form (r : RelationshipPick) (x : RonValue) : Prop :=
  ∃ more, FiltersForm r.filters more ∧
    RecordOf "RelationshipPick" (("type_name", .string r.typeName) :: more) x

def NodePick.Form (n : NodePick) (x : RonValue) : Prop :=
  ∃ more, FiltersForm n.filters more ∧ RecordOf "NodePick" (("label", .string n.label) :: more) x

def Step.Form (s : Step) (x : RonValue) : Prop :=
  ∃ relationship origin, s.relationship.Form relationship ∧ s.origin.Form origin ∧
    RecordOf "Step" [("relationship", relationship), ("direction", s.direction.toRon),
      ("origin_node", origin)] x

def Walk.Form (w : Walk) (x : RonValue) : Prop :=
  ∃ xs, List.Forall₂ Step.Form w.steps xs ∧ x = .list xs

/-! ## What the writer makes -/

theorem forall₂_map {α β : Type} {R : α → β → Prop} {f : α → β} (h : ∀ a, R a (f a))
    (as : List α) : List.Forall₂ R as (as.map f) :=
  List.forall₂_map_right_iff.mpr (List.forall₂_same.mpr fun a _ => h a)

theorem PropertyFilter.form_toRon (f : PropertyFilter) : f.Form f.toRon :=
  .full (.unnamed .rfl)

theorem filtersForm_toRon (fs : List PropertyFilter) :
    FiltersForm fs [("properties", .list (fs.map PropertyFilter.toRon))] :=
  .full (forall₂_map PropertyFilter.form_toRon fs)

theorem RelationshipPick.form_toRon (r : RelationshipPick) : r.Form r.toRon :=
  ⟨_, filtersForm_toRon r.filters, .unnamed .rfl⟩

theorem NodePick.form_toRon (n : NodePick) : n.Form n.toRon :=
  ⟨_, filtersForm_toRon n.filters, .unnamed .rfl⟩

theorem Step.form_toRon (s : Step) : s.Form s.toRon :=
  ⟨_, _, s.relationship.form_toRon, s.origin.form_toRon, .unnamed .rfl⟩

theorem Walk.form_toRon (w : Walk) : w.Form w.toRon :=
  ⟨_, forall₂_map Step.form_toRon w.steps, rfl⟩

/-! ## Every form can be laid out -/

theorem forall₂_right {α β : Type} {R : α → β → Prop} {P : β → Prop} (h : ∀ a b, R a b → P b)
    {as : List α} {bs : List β} (hs : List.Forall₂ R as bs) : ∀ b ∈ bs, P b := by
  induction hs with
  | nil => simp
  | cons hab _ ih =>
    rintro b (_ | ⟨_, hb⟩)
    · exact h _ _ hab
    · exact ih b hb

theorem Operator.regular (o : Operator) (n : Nat) : Regular n o.toRon := by
  cases o
  exact .word (isWord_of_mem _ (by simp [snapshotWords]))

theorem Direction.regular (d : Direction) (n : Nat) : Regular n d.toRon := by
  cases d <;> exact .word (isWord_of_mem _ (by simp [snapshotWords]))

theorem PropertyFilter.Form.regular {f : PropertyFilter} (h : f.Form x) : Regular 1 x := by
  cases h with
  | full h =>
    apply RecordOf.regular h (by simp [snapshotWords]) (by simp) (by simp [snapshotWords])
    simp only [List.forall_mem_cons]
    exact ⟨.string _, f.operator.regular 0, .string _, by simp⟩
  | short _ h =>
    apply RecordOf.regular h (by simp [snapshotWords]) (by simp) (by simp [snapshotWords])
    simp only [List.forall_mem_cons]
    exact ⟨.string _, .string _, by simp⟩

theorem FiltersForm.regular {fs : List PropertyFilter} {more : List (String × RonValue)}
    (h : FiltersForm fs more) :
    (∀ f ∈ more, f.1 ∈ snapshotWords) ∧ ∀ f ∈ more, Regular 2 f.2 := by
  cases h with
  | full hs =>
    have hlist := Regular.list (forall₂_right (fun _ _ h => h.regular) hs)
    exact ⟨by simp [snapshotWords], by simpa using hlist⟩
  | short => simp

/-- A pick of either kind is a text and filters. -/
theorem regular_pick {key text : String} {fs : List PropertyFilter}
    {more : List (String × RonValue)} (hname : typeName ∈ snapshotWords)
    (hkey : key ∈ snapshotWords) (hmore : FiltersForm fs more)
    (h : RecordOf typeName ((key, .string text) :: more) x) : Regular 3 x := by
  obtain ⟨hkeys, hvalues⟩ := hmore.regular
  apply RecordOf.regular h hname (by simp)
  · exact List.forall_mem_cons.mpr ⟨hkey, hkeys⟩
  · exact List.forall_mem_cons.mpr ⟨.string _, hvalues⟩

theorem Step.Form.regular {s : Step} (h : s.Form x) : Regular 4 x := by
  obtain ⟨relationship, origin, ⟨more, hmore, hr⟩, ⟨others, hothers, hn⟩, h⟩ := h
  have hrelationship : Regular 3 relationship :=
    regular_pick (by simp [snapshotWords]) (by simp [snapshotWords]) hmore hr
  have horigin : Regular 3 origin :=
    regular_pick (by simp [snapshotWords]) (by simp [snapshotWords]) hothers hn
  apply RecordOf.regular h (by simp [snapshotWords]) (by simp) (by simp [snapshotWords])
  simp only [List.forall_mem_cons]
  exact ⟨hrelationship, s.direction.regular 3, horigin, by simp⟩

theorem Walk.Form.regular {w : Walk} (h : w.Form x) : Regular 5 x := by
  obtain ⟨xs, hs, rfl⟩ := h
  exact .list (forall₂_right (fun _ _ h => h.regular) hs)

/-! ## Every form is taken for the walk -/

theorem listOf_forall₂ {α : Type} {read : RonValue → Option α} {R : α → RonValue → Prop}
    (h : ∀ a x, R a x → read x = some a) {as : List α} {xs : List RonValue}
    (hs : List.Forall₂ R as xs) : listOf read (.list xs) = some as := by
  unfold listOf
  induction hs with
  | nil => rfl
  | cons hab _ ih => simp [List.mapM_cons, h _ _ hab, ih]

theorem Operator.ofRon?_toRon (o : Operator) : Operator.ofRon? o.toRon = some o := by
  cases o
  rfl

theorem Direction.ofRon?_toRon (d : Direction) : Direction.ofRon? d.toRon = some d := by
  cases d <;> rfl

theorem PropertyFilter.Form.ofRon? {f : PropertyFilter} (h : f.Form x) :
    PropertyFilter.ofRon? [] x = some f := by
  obtain ⟨name, operator, value⟩ := f
  cases h with
  | full h =>
    obtain ⟨written, hfields, hperm⟩ := h.fieldsOf
    simp only [PropertyFilter.ofRon?, hfields, Option.bind_eq_bind, Option.bind_some,
      requiredField_perm hperm, optionalField_perm hperm]
    simp [requiredField, optionalField, stringOf, Operator.ofRon?_toRon]
  | short hequality h =>
    obtain rfl : operator = .equality := hequality
    obtain ⟨written, hfields, hperm⟩ := h.fieldsOf
    simp only [PropertyFilter.ofRon?, hfields, Option.bind_eq_bind, Option.bind_some,
      requiredField_perm hperm, optionalField_perm hperm]
    simp [requiredField, optionalField, stringOf]

/-- A text and filters of a pick, which do not stand in each other's way. -/
theorem fields_pick {key text : String} {fs : List PropertyFilter}
    {more : List (String × RonValue)} (hkey : key ≠ "properties") (hmore : FiltersForm fs more)
    (hperm : written.Perm ((key, .string text) :: more)) :
    requiredField written key = some (.string text) ∧ filtersOfFields [] written = some fs := by
  have hne : ("properties" == key) = false := by simpa using Ne.symm hkey
  have hne' : (key == "properties") = false := by simpa using hkey
  rw [requiredField_perm hperm, filtersOfFields, optionalField_perm hperm]
  cases hmore with
  | full hs =>
    have hread := listOf_forall₂ (fun _ _ h => PropertyFilter.Form.ofRon? h) hs
    simp [requiredField, optionalField, hne, hne', hread]
  | short => simp [requiredField, optionalField, hne']

theorem RelationshipPick.Form.ofRon? {r : RelationshipPick} (h : r.Form x) :
    RelationshipPick.ofRon? [] x = some r := by
  obtain ⟨more, hmore, h⟩ := h
  obtain ⟨written, hfields, hperm⟩ := h.fieldsOf
  obtain ⟨htext, hfilters⟩ := fields_pick (by decide) hmore hperm
  simp [RelationshipPick.ofRon?, hfields, htext, hfilters, stringOf]

theorem NodePick.Form.ofRon? {n : NodePick} (h : n.Form x) : NodePick.ofRon? [] x = some n := by
  obtain ⟨more, hmore, h⟩ := h
  obtain ⟨written, hfields, hperm⟩ := h.fieldsOf
  obtain ⟨htext, hfilters⟩ := fields_pick (by decide) hmore hperm
  simp [NodePick.ofRon?, hfields, htext, hfilters, stringOf]

theorem Step.Form.ofRon? {s : Step} (h : s.Form x) : Step.ofRon? [] x = some s := by
  obtain ⟨relationship, origin, hr, hn, h⟩ := h
  obtain ⟨written, hfields, hperm⟩ := h.fieldsOf
  simp only [Step.ofRon?, hfields, Option.bind_eq_bind, Option.bind_some, requiredField_perm hperm]
  simp [requiredField, optionalField, hr.ofRon?, hn.ofRon?, Direction.ofRon?_toRon]

theorem Walk.Form.ofRon? {w : Walk} (h : w.Form x) : Walk.ofRon? [] x = some w := by
  obtain ⟨xs, hs, rfl⟩ := h
  simp [Walk.ofRon?, listOf_forall₂ (fun _ _ h => Step.Form.ofRon? h) hs]

end SchemaWalk
