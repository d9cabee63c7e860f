import SchemaWalk.Proofs.Json.Words

/-! # Layouts of JSON read back

Words stand between brackets with commas and blanks between them, and a member is a key, a colon and
a value. However such a text is laid out, the reader of the parts gives the reader of the whole. -/

namespace SchemaWalk.Json

variable {α κ : Type}

/-- No blank and no bracket. -/
def OpensWord (c : Char) : Prop :=
  isBlank c = false ∧ c ∉ ['[', ']', '\x7b', '\x7d']

instance (c : Char) : Decidable (OpensWord c) := inferInstanceAs (Decidable (_ ∧ _))

/-- Wherever a word may end, the text is read as the value, and nothing behind it is. -/
structure ReadsAs (r : Reader α) (x : α) (text : List Char) : Prop where
  opens : ∃ c cs, text = c :: cs ∧ OpensWord c
  reads : ∀ rest, EndsWord rest → r (text ++ rest) = some (x, rest)

theorem ReadsAs.map {β : Type} {r : Reader α} {x : α} {text : List Char} (h : ReadsAs r x text)
    (f : α → β) : ReadsAs (fun cs => (r cs).map fun (x, rest) => (f x, rest)) (f x) text where
  opens := h.opens
  reads rest hr := by rw [h.reads rest hr, Option.map_some]

/-! ## Scalars -/

/-- The texts of a value without brackets; numbers are natural and of 64 bits. -/
inductive SpelledAs : Json → List Char → Prop where
  | null : SpelledAs .null "null".toList
  | yes : SpelledAs (.bool true) "true".toList
  | no : SpelledAs (.bool false) "false".toList
  | string {s w} : Spells s.toList w → SpelledAs (.string s) ('"' :: (w ++ ['"']))
  | natural {n j} : ofNat? n = some j → SpelledAs j (Nat.toDigits 10 n)

/-- The text of any value without brackets. -/
inductive ScalarText : List Char → Prop where
  | null : ScalarText "null".toList
  | yes : ScalarText "true".toList
  | no : ScalarText "false".toList
  | string {w} : Quotable w → ScalarText ('"' :: (w ++ ['"']))
  | number {text} : NumberText text → ScalarText text

variable (b : Builder α κ)

theorem readScalar_null (rest : List Char) :
    readScalar b ("null".toList ++ rest) = some (b.null, rest) := by
  rfl

theorem readScalar_true (rest : List Char) :
    readScalar b ("true".toList ++ rest) = some (b.bool true, rest) := by
  rfl

theorem readScalar_false (rest : List Char) :
    readScalar b ("false".toList ++ rest) = some (b.bool false, rest) := by
  rfl

theorem readScalar_quote (cs : List Char) : readScalar b ('"' :: cs) = b.string ('"' :: cs) := by
  rfl

theorem readScalar_number {c : Char} (hc : c = '-' ∨ c.isDigit = true) {cs rest : List Char}
    {w : NumberWord} (h : numberWord (c :: cs) = some (w, rest)) :
    readScalar b (c :: cs) = (b.number w).map fun x => (x, rest) := by
  have hquote : c ≠ '"' := by
    rintro rfl
    exact absurd hc (by decide)
  rw [readScalar, if_neg hquote, if_pos hc, h]
  rfl

theorem readValue_scalar (depth : Nat) {c : Char} (hc : OpensWord c) (cs : List Char) :
    readValue b depth (c :: cs) = readScalar b (c :: cs) := by
  cases depth with
  | zero => rw [readValue]
  | succ depth =>
    obtain ⟨-, hbrackets⟩ := hc
    rw [readValue]
    · rintro _ heq
      obtain ⟨rfl, -⟩ := List.cons.inj heq
      exact absurd hbrackets (by decide)
    · rintro _ heq
      obtain ⟨rfl, -⟩ := List.cons.inj heq
      exact absurd hbrackets (by decide)

theorem opensWord_of_number {c : Char} (hc : c = '-' ∨ c.isDigit = true) : OpensWord c := by
  rcases hc with rfl | hc
  · decide
  constructor
  · rw [Bool.eq_false_iff]
    intro hblank
    rw [not_isDigit_of_isBlank hblank] at hc
    cases hc
  · simp only [List.mem_cons, List.not_mem_nil, or_false]
    rintro (rfl | rfl | rfl | rfl) <;> cases hc

theorem NumberText.opens {text : List Char} (h : NumberText text) :
    ∃ c cs, text = c :: cs ∧ (c = '-' ∨ c.isDigit = true) := by
  obtain @⟨sign, whole, _, _, hsign, hwhole, _, _⟩ := h
  obtain ⟨hne, hall⟩ := hwhole.digits
  rcases hsign with rfl | rfl
  · cases whole with
    | nil => exact absurd rfl hne
    | cons d ds => exact ⟨d, _, rfl, .inr (hall d List.mem_cons_self)⟩
  · exact ⟨'-', _, rfl, .inl rfl⟩

theorem readsAs_spelled {j : Json} {text : List Char} (h : SpelledAs j text) :
    ReadsAs (readScalar builder) j text := by
  cases h with
  | null => exact ⟨⟨_, _, rfl, by decide⟩, fun rest _ => readScalar_null builder rest⟩
  | yes => exact ⟨⟨_, _, rfl, by decide⟩, fun rest _ => readScalar_true builder rest⟩
  | no => exact ⟨⟨_, _, rfl, by decide⟩, fun rest _ => readScalar_false builder rest⟩
  | @string s w hw =>
    refine ⟨⟨_, _, rfl, by decide⟩, fun rest _ => ?_⟩
    have hstring := stringWord_spells hw rest
    simp only [List.cons_append, List.append_assoc, List.nil_append]
    rw [readScalar_quote]
    exact congrArg (Option.map _) hstring
  | @natural n j hj =>
    obtain ⟨⟨hne, hall⟩, -⟩ := wholeText_toDigits n
    obtain ⟨d, ds, hdigits⟩ := List.exists_cons_of_ne_nil hne
    have hfirst : d ∈ Nat.toDigits 10 n := by
      rw [hdigits]
      exact List.mem_cons_self
    have hd : d = '-' ∨ d.isDigit = true := .inr (hall d hfirst)
    refine ⟨⟨d, ds, hdigits, opensWord_of_number hd⟩, fun rest hr => ?_⟩
    have hword := numberWord_toDigits n hr
    have hvalue := value_toDigits hj
    rw [hdigits, List.cons_append] at hword ⊢
    rw [hdigits] at hvalue
    rw [readScalar_number builder hd hword]
    exact congrArg (Option.map fun x => (x, rest)) hvalue

theorem readsAs_scalar {text : List Char} (h : ScalarText text) :
    ReadsAs (readScalar skipper) () text := by
  cases h with
  | null => exact ⟨⟨_, _, rfl, by decide⟩, fun rest _ => readScalar_null skipper rest⟩
  | yes => exact ⟨⟨_, _, rfl, by decide⟩, fun rest _ => readScalar_true skipper rest⟩
  | no => exact ⟨⟨_, _, rfl, by decide⟩, fun rest _ => readScalar_false skipper rest⟩
  | string hw =>
    refine ⟨⟨_, _, rfl, by decide⟩, fun rest _ => ?_⟩
    simp only [List.cons_append, List.append_assoc, List.nil_append]
    rw [readScalar_quote]
    exact skipStringTail_quotable hw rest
  | number hnumber =>
    obtain ⟨c, cs, rfl, hc⟩ := hnumber.opens
    refine ⟨⟨c, cs, rfl, opensWord_of_number hc⟩, fun rest hr => ?_⟩
    obtain ⟨w, hw⟩ := numberWord_text hnumber hr
    rw [List.cons_append] at hw ⊢
    rw [readScalar_number skipper hc hw]
    rfl

theorem readsAs_skip {text : List Char} (h : ScalarText text) : ReadsAs skip () text where
  opens := (readsAs_scalar h).opens
  reads := by
    intro rest hr
    have hread := (readsAs_scalar h).reads rest hr
    obtain ⟨c, cs, rfl, hc⟩ := (readsAs_scalar h).opens
    rw [List.cons_append] at hread ⊢
    rw [skip, readValue_scalar skipper _ hc, hread]

/-! ## Between brackets -/

/-- Items behind an opening bracket, up to the closing one: each between gaps, commas between
them. -/
inductive Listed (P : α → List Char → Prop) (closing : Char) : List α → List Char → Prop where
  | nil {g} : Gap g → Listed P closing [] (g ++ [closing])
  | last {g x text g'} : Gap g → P x text → Gap g' →
      Listed P closing [x] (g ++ (text ++ (g' ++ [closing])))
  | cons {g x text g' y ys body} : Gap g → P x text → Gap g' → Listed P closing (y :: ys) body →
      Listed P closing (x :: y :: ys) (g ++ (text ++ (g' ++ ',' :: body)))

theorem Listed.imp {P Q : α → List Char → Prop} {closing : Char} {xs : List α} {body : List Char}
    (h : Listed P closing xs body) (himp : ∀ x text, P x text → Q x text) :
    Listed Q closing xs body := by
  induction h with
  | nil hg => exact .nil hg
  | last hg hx hg' => exact .last hg (himp _ _ hx) hg'
  | cons hg hx hg' _ ih => exact .cons hg (himp _ _ hx) hg' ih

theorem Listed.length_le {P : α → List Char → Prop} {closing : Char} {xs : List α}
    {body : List Char} (h : Listed P closing xs body) : xs.length ≤ body.length := by
  induction h with
  | nil => simp
  | last => simp; omega
  | cons _ _ _ _ ih => simp at ih ⊢; omega

theorem readItems_step {r : Reader α} {x : α} {text : List Char} (h : ReadsAs r x text)
    (closing : Char) {g g' : List Char} (hg : Gap g) (hg' : Gap g') {c : Char}
    (hc : c = ',' ∨ c = ']' ∨ c = '\x7d') (tries : Nat) (cs : List Char) :
    readItems r closing (tries + 1) (g ++ (text ++ (g' ++ c :: cs))) =
      if c = ',' then (readItems r closing tries cs).map fun (xs, rest) => (x :: xs, rest)
      else if c = closing then some ([x], cs)
      else none := by
  obtain ⟨d, ds, htext, hblank, -⟩ := h.opens
  have hread := h.reads (g' ++ c :: cs) (endsWord_mark hg' hc cs)
  have hskip : skipBlanks (g ++ (text ++ (g' ++ c :: cs))) = text ++ (g' ++ c :: cs) := by
    rw [htext]
    exact skipBlanks_mark hg hblank _
  have hmark : isBlank c = false := by
    rcases hc with rfl | rfl | rfl <;> rfl
  rw [readItems, hskip, hread]
  simp only [skipBlanks_mark hg' hmark]

theorem readItems_listed {r : Reader α} {closing : Char}
    (hclosing : closing = ']' ∨ closing = '\x7d') {xs : List α} {body : List Char}
    (h : Listed (ReadsAs r) closing xs body) (hne : xs ≠ []) {tries : Nat}
    (ht : xs.length ≤ tries) (rest : List Char) :
    readItems r closing tries (body ++ rest) = some (xs, rest) := by
  have hcomma : closing ≠ ',' := by
    rcases hclosing with rfl | rfl <;> decide
  -- Every item uses up one of the tries, and the last one sees the closing bracket.
  induction h generalizing tries with
  | nil => exact absurd rfl hne
  | last hg hx hg' =>
    cases tries with
    | zero => exact absurd ht (by simp)
    | succ tries =>
      have hstep := readItems_step hx closing hg hg' (.inr hclosing) tries rest
      simp only [List.append_assoc, List.singleton_append]
      rw [hstep, if_neg hcomma, if_pos rfl]
  | @cons _ _ _ _ _ _ body hg hx hg' _ ih =>
    cases tries with
    | zero => exact absurd ht (by simp)
    | succ tries =>
      have hstep := readItems_step hx closing hg hg' (.inl rfl) tries (body ++ rest)
      have hlater := ih (List.cons_ne_nil _ _) (Nat.le_of_succ_le_succ ht)
      simp only [List.append_assoc, List.cons_append]
      rw [hstep, if_pos rfl, hlater]
      rfl

/-- The gap in front of the first item may be left out. -/
theorem Listed.front {r : Reader α} {closing : Char} {xs : List α} {body : List Char}
    (h : Listed (ReadsAs r) closing xs body) (hne : xs ≠ []) :
    ∃ g c cs, body = g ++ c :: cs ∧ Gap g ∧ OpensWord c ∧
      Listed (ReadsAs r) closing xs (c :: cs) := by
  cases h with
  | nil => exact absurd rfl hne
  | last hg hx hg' =>
    have hlisted : Listed (ReadsAs r) closing _ _ := .last gap_nil hx hg'
    obtain ⟨c, cs, rfl, hc⟩ := hx.opens
    exact ⟨_, c, _, rfl, hg, hc, hlisted⟩
  | cons hg hx hg' hrest =>
    have hlisted := Listed.cons gap_nil hx hg' hrest
    obtain ⟨c, cs, rfl, hc⟩ := hx.opens
    exact ⟨_, c, _, rfl, hg, hc, hlisted⟩

theorem readEnclosed_listed {r : Reader α} {closing : Char}
    (hclosing : closing = ']' ∨ closing = '\x7d') {xs : List α} {body : List Char}
    (h : Listed (ReadsAs r) closing xs body) (rest : List Char) :
    readEnclosed r closing (body ++ rest) = some (xs, rest) := by
  by_cases hne : xs = []
  · subst hne
    have hblank : isBlank closing = false := by
      rcases hclosing with rfl | rfl <;> rfl
    cases h with
    | nil hg =>
      rw [List.append_assoc, List.singleton_append, readEnclosed, skipBlanks_mark hg hblank]
      exact if_pos rfl
  -- The tries are counted from the first item on, so the gap in front of it must not count.
  · obtain ⟨g, c, cs, rfl, hg, ⟨hblank, hbracket⟩, hfront⟩ := h.front hne
    have hc : c ≠ closing := by
      rintro rfl
      rcases hclosing with rfl | rfl <;> exact absurd hbracket (by decide)
    have htries : xs.length ≤ (c :: (cs ++ rest)).length := by
      have hle := hfront.length_le
      simp only [List.length_cons, List.length_append] at hle ⊢
      omega
    rw [List.append_assoc, List.cons_append, readEnclosed, skipBlanks_mark hg hblank]
    simp only [if_neg hc]
    exact readItems_listed hclosing hfront hne htries rest

/-! ## Members -/

theorem readsAs_member {key : Reader κ} {k : κ} {name : List Char} {value : κ → Reader α} {x : α}
    {text g g' : List Char} (hname : ∃ cs, name = '"' :: cs)
    (hkey : ∀ rest, key (name ++ rest) = some (k, rest)) (hg : Gap g) (hg' : Gap g')
    (h : ReadsAs (value k) x text) :
    ReadsAs (readMember key value) (k, x) (name ++ (g ++ ':' :: (g' ++ text))) where
  opens := by
    obtain ⟨cs, rfl⟩ := hname
    exact ⟨'"', _, rfl, by decide⟩
  reads := by
    intro rest hr
    obtain ⟨d, ds, htext, hblank, -⟩ := h.opens
    have hread := h.reads rest hr
    have hskip : skipBlanks (g' ++ (text ++ rest)) = text ++ rest := by
      rw [htext]
      exact skipBlanks_mark hg' hblank _
    simp only [List.append_assoc, List.cons_append]
    rw [readMember, hkey]
    simp only [Option.bind_eq_bind, Option.bind_some]
    rw [skipBlanks_mark hg (by decide)]
    simp only [hskip, hread, Option.map_some]

/-! ## Whole texts -/

/-- A text is read by itself if its value stands alone between gaps. -/
theorem alone_eq {r : Reader α} {x : α} {text : String} {g body g' : List Char}
    (htext : text.toList = g ++ (body ++ g')) (hg : Gap g) (hg' : Gap g')
    (hopens : ∃ c cs, body = c :: cs ∧ isBlank c = false)
    (hread : r (body ++ g') = some (x, g')) : alone r text = some x := by
  obtain ⟨c, cs, rfl, hc⟩ := hopens
  rw [alone, htext, List.cons_append, skipBlanks_mark hg hc, ← List.cons_append, hread]
  simp only [skipBlanks_gap hg', List.isEmpty_nil, if_true]

end SchemaWalk.Json
