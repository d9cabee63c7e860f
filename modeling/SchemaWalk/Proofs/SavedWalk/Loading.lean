import SchemaWalk.Proofs.Ron.Torn
import SchemaWalk.Proofs.SavedWalk.Persistence

/-! # Texts that load, and texts that do not

A walk is taken up again from every text that writes it, however it is laid out. A text that breaks
off is refused, so that a walk cut short is never mistaken for a shorter walk. -/

namespace SchemaWalk

open Ron

/-! ## Whole texts -/

/-- The texts of a walk: one of its forms, laid out in any way, between gaps. -/
def Walk.Written (w : Walk) (text : String) : Prop :=
  ∃ x g laid g', w.Form x ∧ Laid x laid ∧ Gap g ∧ Gap g' ∧
    text = String.ofList (g ++ (laid ++ g'))

theorem written_snapshot (w : Walk) : w.Written w.snapshot :=
  ⟨_, [], _, [], w.form_toRon, laid_snapshot w, gap_nil, gap_nil, by simp [Walk.snapshot]⟩

/-- A text that writes a walk is read as it, whatever rules the walk breaks. -/
theorem Walk.Written.read? {w : Walk} {text : String} (h : w.Written text) :
    Walk.read? text = some w := by
  obtain ⟨x, g, laid, g', hx, hlaid, hg, hg', rfl⟩ := h
  simp [Walk.read?, document_laid hx hlaid hg hg', hx.ofRon?]

theorem Walk.Written.parse {w : Walk} {text : String} (h : w.Written text)
    (hw : w.validate = .ok ()) : parseSnapshot text = .ok w := by
  simp [parseSnapshot, h.read?, hw]

theorem Walk.Written.unique {w w' : Walk} {text : String} (h : w.Written text)
    (h' : w'.Written text) : w = w' :=
  Option.some.inj (h.read?.symm.trans h'.read?)

namespace SavedWalk

/-- All texts of a valid walk are as good as its snapshot, which is one of them. -/
theorem layouts_load_alike {w : Walk} (hw : w.validate = .ok ()) {text : String}
    (h : w.Written text) :
    parseSnapshot text = .ok w ∧
      (parseSnapshot text).map Walk.snapshot = .ok w.snapshot ∧ w.Written w.snapshot ∧
      (∀ (σ : Type) (s : SavedWalk σ), s.restore text = .ok { s with walk := w }) ∧
      ∀ (σ : Type) [KeyValueStore σ] (store : σ),
        KeyValueStore.get store walkKey = .ok (some text) → load store = ⟨w, store⟩ := by
  have hparse := h.parse hw
  refine ⟨hparse, by rw [hparse]; rfl, written_snapshot w, ?_, ?_⟩
  · intro σ s
    rw [restore, hparse]
    rfl
  · intro σ _ store hget
    simp [load, hget, restore, hparse, Except.map, fresh]

/-- One step, with quotes in the value of its filter. -/
def personKnows : Walk :=
  ⟨[⟨⟨"Person", []⟩, ⟨"KNOWS", [⟨"since", .equality, "\"19\""⟩]⟩, .inbound⟩]⟩

/-- Two of the records have their names, fields are out of order, the operator and the empty
filters are left out, and a comma is behind some of the last members. -/
def personKnowsText : String :=
  " [Step(direction: inbound, origin_node: (label: \"Person\"),\n\trelationship: " ++
    "RelationshipPick (properties :[(value: \"\\\"19\\\"\", name: \"since\")]," ++
    "type_name: \"KNOWS\",))]\n"

set_option maxRecDepth 8000 in
theorem written_personKnows : personKnows.Written personKnowsText := by
  have hfilter : PropertyFilter.Form ⟨"since", .equality, "\"19\""⟩
      (.record none [("value", .string "\"19\""), ("name", .string "since")]) :=
    .short rfl (.unnamed (.swap _ _ _))
  have hrelationship : RelationshipPick.Form ⟨"KNOWS", [⟨"since", .equality, "\"19\""⟩]⟩ _ :=
    ⟨_, .full (.cons hfilter .nil), .named (.swap _ _ _)⟩
  have horigin : NodePick.Form ⟨"Person", []⟩ _ := ⟨_, .short, .unnamed .rfl⟩
  have hwalk : personKnows.Form _ :=
    ⟨_, .cons ⟨_, _, hrelationship, horigin, .named (.trans (.cons _ (.swap _ _ _)) (.swap _ _ _))⟩
      .nil, rfl⟩
  have hblank : Gap [' '] := by decide
  have hbreak : Gap ['\n', '\t'] := by decide
  have hvalue := Laid.record .unnamed
    (.cons gap_nil (.mk "value" gap_nil hblank (.string "\"19\"")) gap_nil
      (.last hblank (.mk "name" gap_nil hblank (.string "since")) gap_nil))
  have hpick := Laid.record (.named "RelationshipPick" hblank)
    (.cons gap_nil (.mk "properties" hblank gap_nil (.list (.last gap_nil hvalue gap_nil))) gap_nil
      (.cons gap_nil (.mk "type_name" gap_nil hblank (.string "KNOWS")) gap_nil (.nil gap_nil)))
  have hnode := Laid.record .unnamed
    (.last gap_nil (.mk "label" gap_nil hblank (.string "Person")) gap_nil)
  have hstep := Laid.record (.named "Step" gap_nil)
    (.cons gap_nil (.mk "direction" gap_nil hblank (.word "inbound")) gap_nil
      (.cons hblank (.mk "origin_node" gap_nil hblank hnode) gap_nil
        (.last hbreak (.mk "relationship" gap_nil hblank hpick) gap_nil)))
  have hlaid := Laid.list (.last gap_nil hstep gap_nil)
  exact ⟨_, [' '], _, ['\n'], hwalk, hlaid, hblank, by decide, rfl⟩

theorem layouts_load_alike_personKnows : parseSnapshot personKnowsText = .ok personKnows :=
  (layouts_load_alike rfl written_personKnows).1

end SavedWalk

/-! ## Torn texts -/

theorem document_torn_snapshot (w : Walk) {p : List Char} (hp : p <+: w.snapshot.toList)
    (hne : p ≠ w.snapshot.toList) : document p = none := by
  have hlaid : Laid w.toRon w.snapshot.toList := by
    simpa [Walk.snapshot] using laid_snapshot w
  exact document_torn w.form_toRon.regular (by decide) hlaid hp hne

namespace SavedWalk

/-- Wherever the text of a walk breaks off, it is malformed: nothing changes when it is to be
restored, and a store that holds it opens with no walk. -/
theorem torn_snapshot_refused (w : Walk) {p : String} (hp : p.toList <+: w.snapshot.toList)
    (hne : p ≠ w.snapshot) :
    parseSnapshot p = .error (.restore "malformed snapshot") ∧
      (∀ (σ : Type) [KeyValueStore σ] (s : SavedWalk σ),
        s.restore p = .error (.restore "malformed snapshot") ∧ s.perform (.restore p) = s) ∧
      ∀ (σ : Type) [KeyValueStore σ] (store : σ),
        KeyValueStore.get store walkKey = .ok (some p) → load store = fresh store := by
  have hdocument : document p.toList = none := by
    apply document_torn_snapshot w hp
    exact fun heq => hne (String.toList_inj.mp heq)
  have hparse : parseSnapshot p = .error (.restore "malformed snapshot") := by
    simp [parseSnapshot, Walk.read?, hdocument]
  refine ⟨hparse, ?_, ?_⟩
  · intro σ _ s
    have hrestore : s.restore p = .error (.restore "malformed snapshot") := by
      rw [restore, hparse]
      rfl
    exact ⟨hrestore, by rw [perform, hrestore]⟩
  · intro σ _ store hget
    simp [load, hget, restore, hparse, Except.map]

/-- The text of a relationship type in quotes, broken off behind the backslash of the first. -/
def quotedTypeTorn : String := "[\n    (\n        relationship: (\n            type_name: \"\\"

def quotedType : Walk := ⟨[⟨⟨"A", []⟩, ⟨"\"B\"", []⟩, .outbound⟩]⟩

theorem quotedTypeTorn_prefix : quotedTypeTorn.toList <+: quotedType.snapshot.toList := by
  simp only [Walk.snapshot, String.toList_ofList]
  decide +kernel

theorem torn_snapshot_refused_quoted_type :
    load (⟨.ofList [(walkKey, quotedTypeTorn)], true, true⟩ : Memory) =
      fresh ⟨.ofList [(walkKey, quotedTypeTorn)], true, true⟩ := by
  have h := torn_snapshot_refused _ quotedTypeTorn_prefix (by decide +kernel)
  exact h.2.2 Memory _ rfl

end SavedWalk

end SchemaWalk
