import SchemaWalk.Proofs.Snapshot.Form

/-! # Snapshots read back

The text of a walk is well-formed whatever its steps hold, and it is read as that walk. Only the
check behind the reading can fail, with the first rule that a step breaks. -/

namespace SchemaWalk

open Ron

/-! ## The text of a walk -/

theorem laid_snapshot (w : Walk) : Laid w.toRon (w.toRon.render 0) :=
  laid_render w.form_toRon.regular 0

theorem document_laid {w : Walk} {x : RonValue} (hx : w.Form x) {text g g' : List Char}
    (h : Laid x text) (hg : Gap g) (hg' : Gap g') :
    document (g ++ (text ++ g')) = some ([], x) := by
  have hregular : Regular 64 x := hx.regular.mono (by decide)
  exact document_readsAs (readsAs_of_laid hregular h) hg hg'

theorem document_snapshot (w : Walk) : document w.snapshot.toList = some ([], w.toRon) := by
  simpa [Walk.snapshot] using document_laid w.form_toRon (laid_snapshot w) gap_nil gap_nil

/-- The text of a walk is read as the walk, whatever rules it breaks. -/
theorem read?_snapshot (w : Walk) : Walk.read? w.snapshot = some w := by
  simp [Walk.read?, document_snapshot, w.form_toRon.ofRon?]

/-! ## The rules of a walk -/

/-- The names of filters, each with what is reported when it is empty. -/
def requiredNames (fs : List PropertyFilter) : List (String × WalkError) :=
  fs.map fun f => (f.name, .emptyPropertyName)

/-- The texts of a step that must not be empty, in the order of the check: the label of the
origin, its filters, the type of the relationship, its filters. -/
def Step.required (s : Step) : List (String × WalkError) :=
  (s.origin.label, .emptyNodeLabel) :: requiredNames s.origin.filters ++
    (s.relationship.typeName, .emptyRelationshipType) :: requiredNames s.relationship.filters

def Walk.required (w : Walk) : List (String × WalkError) := w.steps.flatMap Step.required

def firstBroken (texts : List (String × WalkError)) : Option WalkError :=
  (texts.find? fun r => r.1 = "").map (·.2)

/-- What a check comes to when this is the first rule that is broken. -/
def verdict : Option WalkError → Except WalkError Unit
  | none => .ok ()
  | some e => .error e

theorem firstBroken_cons (text : String) (e : WalkError) (rest : List (String × WalkError)) :
    firstBroken ((text, e) :: rest) = if text = "" then some e else firstBroken rest := by
  by_cases h : text = "" <;> simp [firstBroken, h]

theorem firstBroken_append (texts rest : List (String × WalkError)) :
    firstBroken (texts ++ rest) = (firstBroken texts).or (firstBroken rest) := by
  unfold firstBroken
  rw [List.find?_append]
  cases texts.find? fun r => r.1 = "" <;> rfl

theorem validateFilters_eq (fs : List PropertyFilter) :
    validateFilters fs = verdict (firstBroken (requiredNames fs)) := by
  induction fs with
  | nil => rfl
  | cons f fs ih =>
    rw [requiredNames, List.map_cons, firstBroken_cons, ← requiredNames, validateFilters, ih]
    by_cases h : f.name = "" <;> simp [PropertyFilter.validate, verdict, h]

theorem validate_node_eq (n : NodePick) :
    n.validate = verdict (firstBroken ((n.label, .emptyNodeLabel) :: requiredNames n.filters)) := by
  rw [firstBroken_cons, NodePick.validate, validateFilters_eq]
  by_cases h : n.label = "" <;> simp [verdict, h]

theorem validate_relationship_eq (r : RelationshipPick) :
    r.validate = verdict (firstBroken
      ((r.typeName, .emptyRelationshipType) :: requiredNames r.filters)) := by
  rw [firstBroken_cons, RelationshipPick.validate, validateFilters_eq]
  by_cases h : r.typeName = "" <;> simp [verdict, h]

theorem validate_step_eq (s : Step) : s.validate = verdict (firstBroken s.required) := by
  rw [Step.required, firstBroken_append, Step.validate, validate_node_eq, validate_relationship_eq]
  cases firstBroken ((s.origin.label, .emptyNodeLabel) :: requiredNames s.origin.filters) <;> rfl

theorem validate_walk_eq (w : Walk) : w.validate = verdict (firstBroken w.required) := by
  obtain ⟨steps⟩ := w
  simp only [Walk.validate, Walk.required]
  induction steps with
  | nil => rfl
  | cons s steps ih =>
    rw [List.flatMap_cons, firstBroken_append, Walk.validateSteps, validate_step_eq, ih]
    cases firstBroken s.required <;> rfl

/-! ## Reading a snapshot -/

theorem parseSnapshot_snapshot (w : Walk) :
    parseSnapshot w.snapshot =
      match firstBroken w.required with
      | none => .ok w
      | some e => .error (.restore e.message) := by
  unfold parseSnapshot
  rw [read?_snapshot]
  simp only [validate_walk_eq]
  cases firstBroken w.required <;> rfl

theorem firstBroken_eq_none {texts : List (String × WalkError)} (h : ∀ r ∈ texts, r.1 ≠ "") :
    firstBroken texts = none := by
  induction texts with
  | nil => rfl
  | cons r texts ih =>
    obtain ⟨text, e⟩ := r
    rw [firstBroken_cons, if_neg (h _ List.mem_cons_self)]
    exact ih fun r hr => h r (List.mem_cons_of_mem _ hr)

/-- Every walk has a text that reads back. The model's rules decide whether the walk is taken
up again, and of several broken rules the first one is reported. -/
theorem snapshot_round_trip (w : Walk) :
    Walk.read? w.snapshot = some w ∧
      ((∀ r ∈ w.required, r.1 ≠ "") → parseSnapshot w.snapshot = .ok w) ∧
      ∀ kept e rest, w.required = kept ++ ("", e) :: rest → (∀ r ∈ kept, r.1 ≠ "") →
        parseSnapshot w.snapshot = .error (.restore e.message) := by
  refine ⟨read?_snapshot w, ?_, ?_⟩
  · intro h
    rw [parseSnapshot_snapshot, firstBroken_eq_none h]
  · intro kept e rest heq hkept
    have hfirst : firstBroken w.required = some e := by
      rw [heq, firstBroken_append, firstBroken_eq_none hkept, firstBroken_cons, if_pos rfl]
      rfl
    rw [parseSnapshot_snapshot, hfirst]

/-- A label of a quote, a backslash, a line break and a combining accent, and a filter without a
name in front of a relationship without a type. -/
def brokenWalk : Walk :=
  ⟨[⟨⟨"a\"\\\n\u0301", [⟨"", .equality, "'"⟩]⟩, ⟨"", []⟩, .inbound⟩]⟩

theorem snapshot_round_trip_broken :
    parseSnapshot brokenWalk.snapshot =
      .error (.restore "invalid property selection: property name must not be empty") := by
  have h := (snapshot_round_trip brokenWalk).2.2
  exact h [(_, _)] _ _ rfl (by decide)

end SchemaWalk
