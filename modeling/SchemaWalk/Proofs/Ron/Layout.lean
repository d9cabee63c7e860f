import SchemaWalk.Proofs.Ron.Quoted
import SchemaWalk.Proofs.Ron.Word

/-! # Layouts read back

How strings, variants, records and lists may be laid out, and that the reader of values takes
each such text for the value it lays out. A text is read the same wherever it stands: only a gap
and a comma, a closing bracket or the end may follow. -/

namespace SchemaWalk.Ron

open Text

variable {α : Type}

def OpensMember (c : Char) : Prop := c.isAlpha = true ∨ OpensBracket c

/-- In every place where a value may stand, a reader takes the text, and no more than gaps behind
it, for the value. -/
structure ReadsAs (r : Reader α) (x : α) (text : List Char) : Prop where
  opens : ∃ c cs, text = c :: cs ∧ OpensMember c
  reads : ∀ rest, Stops rest →
    ∃ rest', r (text ++ rest) = some (x, rest') ∧ skipGap rest' = skipGap rest

/-- Members between brackets, behind the opening one: each between gaps, commas between them, and
one more comma or none behind the last. -/
inductive Listed (P : α → List Char → Prop) (closing : Char) : List α → List Char → Prop where
  | nil {g} : Gap g → Listed P closing [] (g ++ [closing])
  | last {g x text g'} : Gap g → P x text → Gap g' →
      Listed P closing [x] (g ++ (text ++ (g' ++ [closing])))
  | cons {g x text g' xs body} : Gap g → P x text → Gap g' → Listed P closing xs body →
      Listed P closing (x :: xs) (g ++ (text ++ (g' ++ ',' :: body)))

theorem solid_of_opensMember {c : Char} (h : OpensMember c) : Solid c := by
  rcases h with h | rfl | rfl | rfl
  · constructor
    · rintro rfl
      exact absurd h (by decide)
    · have hbounds := bounds_of_isAlpha h
      simp only [isBlank, Bool.or_eq_false_iff, Bool.and_eq_false_iff, decide_eq_false_iff_not,
        beq_eq_false_iff_ne]
      omega
  all_goals decide

theorem not_endsMember_of_opensMember {c : Char} (h : OpensMember c) : ¬ EndsMember c := by
  intro he
  rcases he with rfl | rfl | rfl <;> exact absurd h (by simp [OpensMember, OpensBracket])

theorem ReadsAs.skipGap_eq {r : Reader α} {x : α} {text : List Char} (h : ReadsAs r x text)
    {g : List Char} (hg : Gap g) (rest : List Char) :
    skipGap (g ++ (text ++ rest)) = some (text ++ rest) := by
  obtain ⟨c, cs, rfl, hc⟩ := h.opens
  exact skipGap_mark hg (solid_of_opensMember hc) _

/-! ## Members -/

theorem Listed.imp {P Q : α → List Char → Prop} {closing : Char} {xs : List α} {body : List Char}
    (h : Listed P closing xs body) (himp : ∀ x ∈ xs, ∀ text, P x text → Q x text) :
    Listed Q closing xs body := by
  induction h with
  | nil hg => exact .nil hg
  | last hg hx hg' => exact .last hg (himp _ (by simp) _ hx) hg'
  | cons hg hx hg' _ ih =>
    exact .cons hg (himp _ (by simp) _ hx) hg' (ih fun x hx => himp x (List.mem_cons_of_mem _ hx))

theorem Listed.length_le {P : α → List Char → Prop} {closing : Char} {xs : List α}
    {body : List Char} (h : Listed P closing xs body) : xs.length ≤ body.length := by
  induction h with
  | nil => simp
  | last => simp; omega
  | cons _ _ _ _ ih => simp; omega

theorem ReadsAs.read_mark {r : Reader α} {x : α} {text : List Char} (h : ReadsAs r x text)
    {g : List Char} (hg : Gap g) {c : Char} (hc : EndsMember c) (cs : List Char) :
    ∃ rest', r (text ++ (g ++ c :: cs)) = some (x, rest') ∧ skipGap rest' = some (c :: cs) := by
  obtain ⟨rest', hr, hskip⟩ := h.reads (g ++ c :: cs) (.mark cs hg hc)
  exact ⟨rest', hr, by rw [hskip, skipGap_mark hg (solid_of_endsMember hc)]⟩

/-- What becomes of the rest of a bracket where a member is to come. -/
theorem separated_opens (r : Reader α) {c closing : Char} (hc : OpensMember c)
    (hclosing : EndsMember closing) {g : List Char} (hg : Gap g) (t : Char)
    (tries cs : List Char) :
    separated r closing (t :: tries) (g ++ c :: cs) =
      match r (c :: cs) with
      | none => none
      | some (x, cs) =>
        match skipGap cs with
        | none | some [] => none
        | some (c :: cs) =>
          if c = ',' then (separated r closing tries cs).map fun (xs, cs) => (x :: xs, cs)
          else if c = closing then some ([x], cs)
          else none := by
  have hne : c ≠ closing := by
    rintro rfl
    exact not_endsMember_of_opensMember hc hclosing
  rw [separated, skipGap_mark hg (solid_of_opensMember hc)]
  exact if_neg hne

theorem separated_step {r : Reader α} {x : α} {text : List Char} (h : ReadsAs r x text)
    {closing : Char} (hclosing : EndsMember closing) {g : List Char} (hg : Gap g)
    (t : Char) (tries rest : List Char) :
    separated r closing (t :: tries) (g ++ (text ++ rest)) =
      match r (text ++ rest) with
      | none => none
      | some (x, cs) =>
        match skipGap cs with
        | none | some [] => none
        | some (c :: cs) =>
          if c = ',' then (separated r closing tries cs).map fun (xs, cs) => (x :: xs, cs)
          else if c = closing then some ([x], cs)
          else none := by
  obtain ⟨c, cs, rfl, hc⟩ := h.opens
  exact separated_opens r hc hclosing hg t tries (cs ++ rest)

theorem separated_listed {r : Reader α} {closing : Char} (hclosing : closing = ')' ∨ closing = ']')
    {xs : List α} {body : List Char} (h : Listed (ReadsAs r) closing xs body)
    {tries : List Char} (ht : xs.length < tries.length) (rest : List Char) :
    separated r closing tries (body ++ rest) = some (xs, rest) := by
  have hends : EndsMember closing := .inr hclosing
  have hcomma : closing ≠ ',' := by rcases hclosing with rfl | rfl <;> decide
  -- Every member uses up one of the tries, and the last one sees the closing bracket.
  induction h generalizing tries with
  | nil hg =>
    cases tries with
    | nil => simp at ht
    | cons t tries =>
      rw [List.append_assoc, separated, List.singleton_append,
        skipGap_mark hg (solid_of_endsMember hends)]
      simp
  | last hg hx hg' =>
    cases tries with
    | nil => simp at ht
    | cons t tries =>
      obtain ⟨rest', hr, hskip⟩ := hx.read_mark hg' hends rest
      simp only [List.append_assoc, List.singleton_append]
      rw [separated_step hx hends hg, hr]
      simp only [hskip, if_neg hcomma, if_true]
  | cons hg hx hg' _ ih =>
    cases tries with
    | nil => simp at ht
    | cons t tries =>
      obtain ⟨rest', hr, hskip⟩ := hx.read_mark hg' (.inl rfl) (_ ++ rest)
      simp only [List.append_assoc, List.cons_append]
      rw [separated_step hx hends hg, hr]
      simp only [hskip, if_true]
      rw [ih (by simpa using ht)]
      rfl

theorem members_listed {r : Reader α} {closing : Char} (hclosing : closing = ')' ∨ closing = ']')
    {xs : List α} {body : List Char} (h : Listed (ReadsAs r) closing xs body) (rest : List Char) :
    members r closing (body ++ rest) = some (xs, rest) := by
  apply separated_listed hclosing h
  have hlen := h.length_le
  simp only [List.length_cons, List.length_append]
  omega

/-! ## Fields -/

theorem field_colon (r : Reader RonValue) {key : String} (hk : IsWord key) {g : List Char}
    (hg : Gap g) (cs : List Char) :
    field r (key.toList ++ (g ++ ':' :: cs)) =
      (skipGap cs).bind fun cs => (r cs).map fun out => ((key, out.1), out.2) := by
  have hcolon : Solid ':' := by decide
  have hname : name (key.toList ++ (g ++ ':' :: cs)) = some (⟨key, false⟩, g ++ ':' :: cs) :=
    name_word hk (endsName_gap hg (by decide) cs)
  simp only [field, hname, colonValue, skipGap_mark hg hcolon, Option.bind_eq_bind,
    Option.bind_some]
  cases skipGap cs with
  | none => rfl
  | some ds =>
    simp only [Option.bind_some]
    cases r ds <;> rfl

theorem readsAs_field {r : Reader RonValue} {key : String} (hk : IsWord key) {x : RonValue}
    {text g g' : List Char} (hg : Gap g) (hg' : Gap g') (h : ReadsAs r x text) :
    ReadsAs (field r) (key, x) (key.toList ++ (g ++ ':' :: (g' ++ text))) where
  opens := by
    obtain ⟨c, ds, hw, hc, -⟩ := isWordText_cases hk.text
    exact ⟨c, _, by rw [hw]; rfl, .inl hc⟩
  reads := by
    intro rest hrest
    obtain ⟨rest', hr, hskip⟩ := h.reads rest hrest
    refine ⟨rest', ?_, hskip⟩
    simp only [List.append_assoc, List.cons_append]
    rw [field_colon r hk hg, h.skipGap_eq hg', Option.bind_some, hr]
    rfl

/-- Where a field can be read, parentheses hold fields. -/
theorem opensField_of_field {r : Reader RonValue} {cs : List Char} {out : _}
    (hs : skipGap cs = some cs) (h : field r cs = some out) : opensField cs = true := by
  unfold field at h
  cases hn : name cs with
  | none => simp [hn] at h
  | some found =>
    obtain ⟨n, tail⟩ := found
    simp only [hn, Option.bind_eq_bind, Option.bind_some, colonValue] at h
    cases hskip : skipGap tail with
    | none => simp [hskip] at h
    | some tail' =>
      simp only [hskip, Option.bind_some] at h
      split at h
      · simp [opensField, hs, hn, hskip]
      · simp at h

theorem opensField_gap {g : List Char} (hg : Gap g) (cs : List Char) :
    opensField (g ++ cs) = opensField cs := by
  unfold opensField
  rw [skipGap_append hg]

theorem opensField_listed {r : Reader RonValue} {fields : List (String × RonValue)}
    {body : List Char} (h : Listed (ReadsAs (field r)) ')' fields body) (hne : fields ≠ [])
    (rest : List Char) : opensField (body ++ rest) = true := by
  have hfirst : ∀ {x : String × RonValue} {g text tail : List Char}, Gap g →
      ReadsAs (field r) x text → Stops tail → opensField (g ++ (text ++ tail)) = true := by
    intro x g text tail hg hx htail
    obtain ⟨rest', hr, -⟩ := hx.reads tail htail
    rw [opensField_gap hg]
    exact opensField_of_field (hx.skipGap_eq gap_nil tail) hr
  cases h with
  | nil => exact absurd rfl hne
  | last hg hx hg' =>
    simp only [List.append_assoc]
    exact hfirst hg hx (.mark _ hg' (.inr (.inl rfl)))
  | cons hg hx hg' _ =>
    simp only [List.append_assoc]
    exact hfirst hg hx (.mark _ hg' (.inl rfl))

theorem parentheses_listed {r : Reader RonValue} {fields : List (String × RonValue)}
    {body : List Char} (h : Listed (ReadsAs (field r)) ')' fields body) (hne : fields ≠ [])
    (label : Option String) (rest : List Char) :
    parentheses r label (body ++ rest) = some (.record label fields, rest) := by
  unfold parentheses
  rw [opensField_listed h hne, members_listed (.inl rfl) h]
  rfl

/-! ## Values -/

variable {a : Attributes}

theorem value_add_two (a : Attributes) (depth : Nat) :
    ∃ parts : PartReaders, value a (depth + 2) = valueWith a parts ∧
      parts.inside = value a depth := by
  cases depth with
  | zero => exact ⟨⟨value a 0, value a 1, noValue⟩, rfl, rfl⟩
  | succ depth => exact ⟨⟨value a (depth + 1), value a (depth + 2), value a depth⟩, rfl, rfl⟩

theorem firstOf_range {r : Reader RonValue} {cs : List Char} (h : range cs = none) :
    firstOf [source range, r] cs = r cs := by
  simp only [firstOf, source, h, Option.map_none]
  cases r cs <;> rfl

/-- With room for brackets or without, a value that is no range is read by one of two readers. -/
theorem value_eq (a : Attributes) (depth : Nat) {cs : List Char} (h : range cs = none) :
    value a depth cs = flat cs ∨ ∃ parts, value a depth cs = compound a parts cs := by
  match depth with
  | 0 => exact .inl (by rw [value, firstOf_range h])
  | 1 => exact .inr ⟨_, by rw [value, valueWith, firstOf_range h]⟩
  | 2 => exact .inr ⟨_, by rw [value, valueWith, firstOf_range h]⟩
  | depth + 3 => exact .inr ⟨_, by rw [value, valueWith, firstOf_range h]⟩

theorem readsAs_string (depth : Nat) (s : String) :
    ReadsAs (value a depth) (.string s) (quote s).toList where
  opens := ⟨'"', escape s.toList ++ ['"'], by simp [quote], .inr (.inl rfl)⟩
  reads := by
    intro rest _
    refine ⟨rest, ?_, rfl⟩
    obtain ⟨cs, hcs⟩ : ∃ cs, (quote s).toList ++ rest = '"' :: cs := ⟨_, by simp [quote]; rfl⟩
    have hsimple : simple ((quote s).toList ++ rest) = some (.string s, rest) := by
      have hs := string_quote s rest
      rw [hcs] at hs ⊢
      simp [simple, opensNumber, firstOf, stringValue, hs]
    have hopens : OpensBracket '"' := .inl rfl
    rw [hcs] at hsimple ⊢
    rcases value_eq a depth (range_bracket hopens cs) with hv | ⟨parts, hv⟩
    · rw [hv]
      unfold flat
      rw [name_bracket hopens]
      exact hsimple
    · rw [hv]
      unfold compound
      rw [name_bracket hopens]
      exact hsimple

theorem readsAs_unit (depth : Nat) {w : String} (h : IsWord w) :
    ReadsAs (value a depth) (.unit w) w.toList where
  opens := by
    obtain ⟨c, ds, hw, hc, -⟩ := isWordText_cases h.text
    exact ⟨c, ds, hw, .inl hc⟩
  reads := by
    intro rest hrest
    obtain ⟨hbare, hsome⟩ := h.notBare
    have hcontains : bareWords.contains w = false := by simpa using hbare
    have hbeq : (w == "Some") = false := by simpa using hsome
    obtain ⟨rest', hskip, hparen, hagain⟩ : ∃ rest', skipGap rest = some rest' ∧
        (∀ cs, rest' ≠ '(' :: cs) ∧ skipGap rest' = some rest' := by
      rcases skipGap_stops hrest with hs | ⟨c, cs, hc, hs⟩
      · exact ⟨[], hs, by simp, skipGap_nil⟩
      · refine ⟨c :: cs, hs, ?_, skipGap_solid (solid_of_endsMember hc) cs⟩
        rintro ds heq
        obtain ⟨rfl, -⟩ := List.cons.inj heq
        exact absurd hc (by simp [EndsMember])
    refine ⟨rest', ?_, by rw [hagain, hskip]⟩
    rcases value_eq a depth (range_word h rest) with hv | ⟨parts, hv⟩
    · rw [hv]
      unfold flat
      rw [name_word h hrest.endsName]
      simp only [hcontains, hbeq, hskip, Bool.and_false, Bool.false_eq_true, if_false]
    · rw [hv]
      unfold compound
      rw [name_word h hrest.endsName]
      simp only [named, hcontains, hbeq, hskip, Bool.and_false, Bool.false_eq_true, if_false]

theorem value_list (a : Attributes) (depth : Nat) (cs : List Char) :
    value a (depth + 2) ('[' :: cs) =
      (members (value a depth) ']' cs).map fun (items, cs) => (.list items, cs) := by
  have hopens : OpensBracket '[' := .inr (.inr rfl)
  obtain ⟨parts, hv, hinside⟩ := value_add_two a depth
  rw [hv, valueWith, firstOf_range (range_bracket hopens cs)]
  unfold compound
  rw [name_bracket hopens]
  simp only [hinside]

theorem value_record (a : Attributes) (depth : Nat) (cs : List Char) :
    value a (depth + 2) ('(' :: cs) = parentheses (value a depth) none cs := by
  have hopens : OpensBracket '(' := .inr (.inl rfl)
  obtain ⟨parts, hv, hinside⟩ := value_add_two a depth
  rw [hv, valueWith, firstOf_range (range_bracket hopens cs)]
  unfold compound
  rw [name_bracket hopens]
  simp only [hinside]

theorem value_record_named (a : Attributes) (depth : Nat) {w : String} (hw : IsWord w)
    {g : List Char} (hg : Gap g) (cs : List Char) :
    value a (depth + 2) (w.toList ++ (g ++ '(' :: cs)) =
      parentheses (value a depth) (some w) cs := by
  obtain ⟨hbare, hsome⟩ := hw.notBare
  have hcontains : bareWords.contains w = false := by simpa using hbare
  have hbeq : (w == "Some") = false := by simpa using hsome
  have hname : name (w.toList ++ (g ++ '(' :: cs)) = some (⟨w, false⟩, g ++ '(' :: cs) :=
    name_word hw (endsName_gap hg (by decide) cs)
  obtain ⟨parts, hv, hinside⟩ := value_add_two a depth
  rw [hv, valueWith, firstOf_range (range_word hw _), ← hinside]
  unfold compound
  rw [hname]
  simp only [named, hcontains, hbeq, skipGap_mark hg (show Solid '(' by decide), Bool.and_false,
    Bool.false_eq_true, if_false]

theorem readsAs_list {depth : Nat} {items : List RonValue} {body : List Char}
    (h : Listed (ReadsAs (value a depth)) ']' items body) :
    ReadsAs (value a (depth + 2)) (.list items) ('[' :: body) where
  opens := ⟨'[', body, rfl, .inr (.inr (.inr rfl))⟩
  reads := by
    intro rest _
    refine ⟨rest, ?_, rfl⟩
    rw [List.cons_append, value_list, members_listed (.inr rfl) h]
    rfl

theorem readsAs_record {depth : Nat} {fields : List (String × RonValue)} {body : List Char}
    (h : Listed (ReadsAs (field (value a depth))) ')' fields body) (hne : fields ≠ []) :
    ReadsAs (value a (depth + 2)) (.record none fields) ('(' :: body) where
  opens := ⟨'(', body, rfl, .inr (.inr (.inl rfl))⟩
  reads := by
    intro rest _
    refine ⟨rest, ?_, rfl⟩
    rw [List.cons_append, value_record, parentheses_listed h hne]

theorem readsAs_record_named {depth : Nat} {fields : List (String × RonValue)} {body : List Char}
    (h : Listed (ReadsAs (field (value a depth))) ')' fields body) (hne : fields ≠ [])
    {w : String} (hw : IsWord w) {g : List Char} (hg : Gap g) :
    ReadsAs (value a (depth + 2)) (.record (some w) fields) (w.toList ++ (g ++ '(' :: body)) where
  opens := by
    obtain ⟨c, ds, htext, hc, -⟩ := isWordText_cases hw.text
    exact ⟨c, _, by rw [htext]; rfl, .inl hc⟩
  reads := by
    intro rest _
    refine ⟨rest, ?_, rfl⟩
    simp only [List.append_assoc, List.cons_append]
    rw [value_record_named a depth hw hg, parentheses_listed h hne]

/-! ## Documents -/

/-- No attribute stands in front of a value that opens at once. -/
theorem attributes_opens {c : Char} (hc : OpensMember c) {g : List Char} (hg : Gap g) (tries : Nat)
    (cs : List Char) : attributes (tries + 1) (g ++ c :: cs) = some ([], c :: cs) := by
  have hhash : c ≠ '#' := by
    rintro rfl
    exact absurd hc (by simp [OpensMember, OpensBracket])
  rw [attributes, skipGap_mark hg (solid_of_opensMember hc)]
  simp only [Option.bind_eq_bind, Option.bind_some]
  split <;> simp_all

/-- A document without attributes is its value between gaps. -/
theorem document_readsAs {x : RonValue} {text g g' : List Char}
    (h : ReadsAs (value [] maxDepth) x text) (hg : Gap g) (hg' : Gap g') :
    document (g ++ (text ++ g')) = some ([], x) := by
  obtain ⟨rest', hr, hskip⟩ := h.reads g' (.finish hg')
  have hattributes : attributes ((g ++ (text ++ g')).length + 1) (g ++ (text ++ g')) =
      some ([], text ++ g') := by
    obtain ⟨c, cs, rfl, hc⟩ := h.opens
    exact attributes_opens hc hg _ (cs ++ g')
  rw [document, hattributes]
  simp [hr, hskip, skipGap_gap hg']

end SchemaWalk.Ron
