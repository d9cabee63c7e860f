import SchemaWalk.Cypher.Query
import SchemaWalk.Proofs.Cypher.Literal

/-! # Where a pattern ends

Labels, types, names and values are clean when none has the mark that ends it. The pattern of a
filter, a node or a step, put in front of any text, can then be cut off again in one way only, and
so can the pattern of a walk in front of anything but another step. -/

namespace SchemaWalk

open Cypher

/-! ## Clean parts -/

def PropertyFilter.Clean (f : PropertyFilter) : Prop :=
  ':' ∉ f.name.toList ∧ '\'' ∉ f.value.toList

def CleanFilters (fs : List PropertyFilter) : Prop := ∀ f ∈ fs, f.Clean

def CleanLabel (label : String) : Prop := '`' ∉ label.toList

def NodePick.Clean (n : NodePick) : Prop := CleanLabel n.label ∧ CleanFilters n.filters

def RelationshipPick.Clean (r : RelationshipPick) : Prop :=
  ('\x7b' ∉ r.typeName.toList ∧ ']' ∉ r.typeName.toList) ∧ CleanFilters r.filters

def Step.Clean (s : Step) : Prop := s.origin.Clean ∧ s.relationship.Clean

def Walk.Clean (w : Walk) : Prop := ∀ s ∈ w.steps, s.Clean

def Candidate.Clean (c : Candidate) : Prop := CleanLabel c.label ∧ CleanFilters c.filters

instance (f : PropertyFilter) : Decidable f.Clean := inferInstanceAs (Decidable (_ ∧ _))

instance (fs : List PropertyFilter) : Decidable (CleanFilters fs) :=
  inferInstanceAs (Decidable (∀ f ∈ fs, f.Clean))

instance (label : String) : Decidable (CleanLabel label) := inferInstanceAs (Decidable (¬ _))

instance (n : NodePick) : Decidable n.Clean := inferInstanceAs (Decidable (_ ∧ _))

instance (r : RelationshipPick) : Decidable r.Clean := inferInstanceAs (Decidable (_ ∧ _))

instance (s : Step) : Decidable s.Clean := inferInstanceAs (Decidable (_ ∧ _))

instance (w : Walk) : Decidable w.Clean := inferInstanceAs (Decidable (∀ s ∈ w.steps, s.Clean))

instance (c : Candidate) : Decidable c.Clean := inferInstanceAs (Decidable (_ ∧ _))

/-! ## Filters -/

theorem toList_filter_pattern (f : PropertyFilter) :
    f.pattern.toList = f.name.toList ++ ':' :: ' ' :: (Literal.encode f.value).render.toList := by
  simp [PropertyFilter.pattern]

theorem filter_append_inj {f g : PropertyFilter} (hf : f.Clean) (hg : g.Clean) {c c' : Char}
    (hc : EndsLiteral c) (hc' : EndsLiteral c') {rest rest' : List Char}
    (h : f.pattern.toList ++ c :: rest = g.pattern.toList ++ c' :: rest') :
    f = g ∧ c = c' ∧ rest = rest' := by
  rw [toList_filter_pattern, toList_filter_pattern, List.append_assoc, List.append_assoc] at h
  obtain ⟨hname, -, hvalue⟩ := cut_at_mark hf.1 hg.1 h
  obtain ⟨hv, hrest⟩ := literal_append_inj hf.2 hg.2 hc hc' (List.cons.inj hvalue).2
  obtain ⟨name, operator, value⟩ := f
  obtain ⟨name', operator', value'⟩ := g
  obtain rfl : name = name' := String.ext hname
  obtain rfl : value = value' := hv
  cases operator
  cases operator'
  exact ⟨rfl, hrest⟩

/-- What follows the first filter of a block: the others, the end of the block, and a rest. -/
def moreFilters (rest : List Char) : List PropertyFilter → List Char
  | [] => '\x7d' :: rest
  | f :: fs => ',' :: ' ' :: (f.pattern.toList ++ moreFilters rest fs)

theorem toList_filterPattern_cons (f : PropertyFilter) (fs : List PropertyFilter)
    (rest : List Char) :
    (filterPattern (f :: fs)).toList ++ rest =
      '\x7b' :: (f.pattern.toList ++ moreFilters rest fs) := by
  have hblock : (", ".toList.intercalate ((f :: fs).map fun g => g.pattern.toList)) ++
      '\x7d' :: rest = f.pattern.toList ++ moreFilters rest fs := by
    induction fs generalizing f with
    | nil => simp [moreFilters]
    | cons g fs ih => simpa [moreFilters] using ih g
  simpa [filterPattern, String.toList_intercalate, Function.comp_def] using hblock

theorem moreFilters_eq_cons (rest : List Char) (fs : List PropertyFilter) :
    ∃ c cs, moreFilters rest fs = c :: cs ∧ EndsLiteral c := by
  cases fs with
  | nil => exact ⟨_, _, rfl, .inr rfl⟩
  | cons f fs => exact ⟨_, _, rfl, .inl rfl⟩

theorem firstFilter_append_inj {f g : PropertyFilter} (hf : f.Clean) (hg : g.Clean)
    {fs gs : List PropertyFilter} {rest rest' : List Char}
    (h : f.pattern.toList ++ moreFilters rest fs = g.pattern.toList ++ moreFilters rest' gs) :
    f = g ∧ moreFilters rest fs = moreFilters rest' gs := by
  obtain ⟨c, cs, hfs, hc⟩ := moreFilters_eq_cons rest fs
  obtain ⟨c', cs', hgs, hc'⟩ := moreFilters_eq_cons rest' gs
  rw [hfs, hgs] at h ⊢
  obtain ⟨hfg, hmark, hmore⟩ := filter_append_inj hf hg hc hc' h
  exact ⟨hfg, by rw [hmark, hmore]⟩

/-- A comma goes on with a filter and a brace ends the block, so the filters come back in their
order. -/
theorem filters_append_inj {f g : PropertyFilter} {fs gs : List PropertyFilter}
    (hf : CleanFilters (f :: fs)) (hg : CleanFilters (g :: gs)) {rest rest' : List Char}
    (h : f.pattern.toList ++ moreFilters rest fs = g.pattern.toList ++ moreFilters rest' gs) :
    f :: fs = g :: gs ∧ rest = rest' := by
  induction fs generalizing f g gs with
  | nil =>
    obtain ⟨rfl, hmore⟩ := firstFilter_append_inj (hf f List.mem_cons_self)
      (hg g List.mem_cons_self) h
    cases gs with
    | nil => exact ⟨rfl, (List.cons.inj hmore).2⟩
    | cons g' gs => exact absurd (List.cons.inj hmore).1 (by decide)
  | cons f' fs ih =>
    obtain ⟨rfl, hmore⟩ := firstFilter_append_inj (hf f List.mem_cons_self)
      (hg g List.mem_cons_self) h
    cases gs with
    | nil => exact absurd (List.cons.inj hmore).1 (by decide)
    | cons g' gs =>
      have hnext := (List.cons.inj (List.cons.inj hmore).2).2
      obtain ⟨hfs, hrest⟩ :=
        ih (List.forall_mem_cons.mp hf).2 (List.forall_mem_cons.mp hg).2 hnext
      exact ⟨congrArg (f :: ·) hfs, hrest⟩

/-- A block of filters in front of a mark that opens no block. -/
theorem filterPattern_append_inj {fs gs : List PropertyFilter} (hf : CleanFilters fs)
    (hg : CleanFilters gs) {c : Char} (hc : c ≠ '\x7b') {rest rest' : List Char}
    (h : (filterPattern fs).toList ++ c :: rest = (filterPattern gs).toList ++ c :: rest') :
    fs = gs ∧ rest = rest' := by
  cases fs with
  | nil =>
    cases gs with
    | nil => exact ⟨rfl, (List.cons.inj h).2⟩
    | cons g gs =>
      rw [toList_filterPattern_cons] at h
      exact absurd (List.cons.inj h).1 hc
  | cons f fs =>
    rw [toList_filterPattern_cons] at h
    cases gs with
    | nil => exact absurd (List.cons.inj h).1.symm hc
    | cons g gs =>
      rw [toList_filterPattern_cons] at h
      obtain ⟨hfs, hrest⟩ := filters_append_inj hf hg (List.cons.inj h).2
      exact ⟨hfs, (List.cons.inj hrest).2⟩

/-! ## Nodes and steps -/

theorem toList_nodePattern (name label : String) (fs : List PropertyFilter) (rest : List Char) :
    (nodePattern name label fs).toList ++ rest =
      '(' :: (name.toList ++ ':' :: '`' ::
        (label.toList ++ '`' :: ((filterPattern fs).toList ++ ')' :: rest))) := by
  simp [nodePattern, quoteName]

theorem nodePattern_append_inj {name label label' : String} {fs gs : List PropertyFilter}
    (hl : CleanLabel label) (hl' : CleanLabel label') (hf : CleanFilters fs)
    (hg : CleanFilters gs) {rest rest' : List Char}
    (h : (nodePattern name label fs).toList ++ rest =
      (nodePattern name label' gs).toList ++ rest') :
    label = label' ∧ fs = gs ∧ rest = rest' := by
  rw [toList_nodePattern, toList_nodePattern] at h
  have hname := List.append_cancel_left (List.cons.inj h).2
  have hquoted := (List.cons.inj (List.cons.inj hname).2).2
  obtain ⟨hlabel, -, hblock⟩ := cut_at_mark hl hl' hquoted
  exact ⟨String.ext hlabel, filterPattern_append_inj hf hg (by decide) hblock⟩

theorem filterPattern_bracket_eq_cons (fs : List PropertyFilter) (rest : List Char) :
    ∃ c cs, (filterPattern fs).toList ++ ']' :: rest = c :: cs ∧ (c = '\x7b' ∨ c = ']') := by
  cases fs with
  | nil => exact ⟨_, _, rfl, .inr rfl⟩
  | cons f fs => exact ⟨_, _, toList_filterPattern_cons f fs _, .inl rfl⟩

/-- The type of a relationship ends where its block of filters opens or, without one, at the
bracket. -/
theorem relationship_append_inj {r q : RelationshipPick} (hr : r.Clean) (hq : q.Clean)
    {rest rest' : List Char}
    (h : r.typeName.toList ++ ((filterPattern r.filters).toList ++ ']' :: rest) =
      q.typeName.toList ++ ((filterPattern q.filters).toList ++ ']' :: rest')) :
    r = q ∧ rest = rest' := by
  obtain ⟨name, fs⟩ := r
  obtain ⟨name', gs⟩ := q
  obtain ⟨⟨hbrace, hbracket⟩, hf⟩ := hr
  obtain ⟨⟨hbrace', hbracket'⟩, hg⟩ := hq
  obtain ⟨c, cs, hfs, hc⟩ := filterPattern_bracket_eq_cons fs rest
  obtain ⟨c', cs', hgs, hc'⟩ := filterPattern_bracket_eq_cons gs rest'
  simp only [hfs, hgs] at h
  have hx : c' ∉ name.toList := by rcases hc' with rfl | rfl <;> assumption
  have hy : c ∉ name'.toList := by rcases hc with rfl | rfl <;> assumption
  obtain ⟨hname, hmark, hmore⟩ := cut_at_mark hx hy h
  have hblock : (filterPattern fs).toList ++ ']' :: rest =
      (filterPattern gs).toList ++ ']' :: rest' := by rw [hfs, hgs, hmark, hmore]
  obtain ⟨rfl, hrest⟩ := filterPattern_append_inj hf hg (by decide) hblock
  obtain rfl : name = name' := String.ext hname
  exact ⟨rfl, hrest⟩

/-- The relationship of a step, arrows included. -/
def hopPattern : Direction → RelationshipPick → List Char
  | .inbound, r =>
    "<-[:".toList ++ (r.typeName.toList ++ ((filterPattern r.filters).toList ++ "]-".toList))
  | .outbound, r =>
    "-[:".toList ++ (r.typeName.toList ++ ((filterPattern r.filters).toList ++ "]->".toList))

theorem toList_step_pattern (s : Step) :
    s.pattern.toList = (nodePattern "" s.origin.label s.origin.filters).toList ++
      hopPattern s.direction s.relationship := by
  unfold Step.pattern
  cases s.direction <;> simp [hopPattern]

theorem hop_append_inj {d e : Direction} {r q : RelationshipPick} (hr : r.Clean) (hq : q.Clean)
    {rest rest' : List Char} (h : hopPattern d r ++ rest = hopPattern e q ++ rest') :
    d = e ∧ r = q ∧ rest = rest' := by
  -- The arrow stands in front of an inbound relationship and behind an outbound one.
  cases d <;> cases e <;> simp only [hopPattern, List.append_assoc] at h
  · have htype := List.append_cancel_left h
    obtain ⟨rfl, hrest⟩ := relationship_append_inj hr hq htype
    exact ⟨rfl, rfl, (List.cons.inj hrest).2⟩
  · exact absurd (List.cons.inj h).1 (by decide)
  · exact absurd (List.cons.inj h).1 (by decide)
  · have htype := List.append_cancel_left h
    obtain ⟨rfl, hrest⟩ := relationship_append_inj hr hq htype
    exact ⟨rfl, rfl, (List.cons.inj (List.cons.inj hrest).2).2⟩

theorem step_append_inj {s t : Step} (hs : s.Clean) (ht : t.Clean) {rest rest' : List Char}
    (h : s.pattern.toList ++ rest = t.pattern.toList ++ rest') : s = t ∧ rest = rest' := by
  rw [toList_step_pattern, toList_step_pattern, List.append_assoc, List.append_assoc] at h
  obtain ⟨⟨label, fs⟩, r, d⟩ := s
  obtain ⟨⟨label', gs⟩, q, e⟩ := t
  obtain ⟨rfl, rfl, hhop⟩ := nodePattern_append_inj hs.1.1 ht.1.1 hs.1.2 ht.1.2 h
  obtain ⟨rfl, rfl, hrest⟩ := hop_append_inj hs.2 ht.2 hhop
  exact ⟨rfl, hrest⟩

/-! ## Walks -/

theorem toList_walk_pattern (w : Walk) :
    w.pattern.toList = "MATCH ".toList ++ w.steps.flatMap fun s => s.pattern.toList := by
  have hfold : ∀ (steps : List Step) (text : String),
      (steps.foldl (fun text s => text ++ s.pattern) text).toList =
        text.toList ++ steps.flatMap fun s => s.pattern.toList := by
    intro steps
    induction steps with
    | nil => simp
    | cons s steps ih => simp [ih]
  exact hfold w.steps "MATCH "

/-- A step opens with a node that has no variable. -/
def OpensStep (cs : List Char) : Prop := cs.take 2 = ['(', ':']

instance (cs : List Char) : Decidable (OpensStep cs) := inferInstanceAs (Decidable (_ = _))

theorem opensStep_append (s : Step) (rest : List Char) : OpensStep (s.pattern.toList ++ rest) := by
  rw [toList_step_pattern, List.append_assoc, toList_nodePattern]
  rfl

theorem steps_append_inj {steps others : List Step} (hs : ∀ s ∈ steps, s.Clean)
    (ho : ∀ s ∈ others, s.Clean) {rest rest' : List Char} (hr : ¬ OpensStep rest)
    (hr' : ¬ OpensStep rest')
    (h : (steps.flatMap fun s => s.pattern.toList) ++ rest =
      (others.flatMap fun s => s.pattern.toList) ++ rest') :
    steps = others ∧ rest = rest' := by
  induction steps generalizing others with
  | nil =>
    cases others with
    | nil => exact ⟨rfl, h⟩
    | cons t others =>
      rw [List.flatMap_cons, List.append_assoc, List.flatMap_nil, List.nil_append] at h
      exact absurd (h ▸ opensStep_append t _) hr
  | cons s steps ih =>
    rw [List.flatMap_cons, List.append_assoc] at h
    cases others with
    | nil =>
      rw [List.flatMap_nil, List.nil_append] at h
      exact absurd (h ▸ opensStep_append s _) hr'
    | cons t others =>
      rw [List.flatMap_cons, List.append_assoc] at h
      obtain ⟨hs, hsteps⟩ := List.forall_mem_cons.mp hs
      obtain ⟨ht, hothers⟩ := List.forall_mem_cons.mp ho
      obtain ⟨rfl, htail⟩ := step_append_inj hs ht h
      obtain ⟨rfl, hrest⟩ := ih hsteps hothers htail
      exact ⟨rfl, hrest⟩

theorem walk_append_inj {w v : Walk} (hw : w.Clean) (hv : v.Clean) {rest rest' : List Char}
    (hr : ¬ OpensStep rest) (hr' : ¬ OpensStep rest')
    (h : w.pattern.toList ++ rest = v.pattern.toList ++ rest') : w = v ∧ rest = rest' := by
  rw [toList_walk_pattern, toList_walk_pattern, List.append_assoc, List.append_assoc] at h
  obtain ⟨hsteps, hrest⟩ := steps_append_inj hw hv hr hr' (List.append_cancel_left h)
  exact ⟨congrArg Walk.mk hsteps, hrest⟩

end SchemaWalk
