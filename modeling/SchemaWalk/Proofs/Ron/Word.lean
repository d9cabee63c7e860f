import SchemaWalk.Proofs.Ron.Gap
import SchemaWalk.Ron.Reader

/-! # Words read back

The words of a snapshot are its field names, record names and variants. Each is read as a name up
to its end, and none of them, nor a quote or an opening bracket, is taken for a number or for the
start of a range. -/

namespace SchemaWalk.Ron

open Text Decimal

/-- Three ASCII letters, digits and underscores or more, a letter first. The second and third tell
a word from the openings of quoted text. -/
def isWordText : List Char → Bool
  | c :: d :: e :: cs => c.isAlpha && (d :: e :: cs).all fun c => c.isAlphanum || c == '_'
  | _ => false

/-- Whether two words can stand at the front of one and the same text. -/
def clashes (cs ds : List Char) : Bool := cs.isPrefixOf ds || ds.isPrefixOf cs

/-- A name that is no value by itself and opens no number. -/
structure IsWord (w : String) : Prop where
  text : isWordText w.toList = true
  notBare : w ∉ bareWords ∧ w ≠ "Some"
  notFloat : ∀ f ∈ floatWords, clashes f.toList w.toList = false

instance (w : String) : Decidable (IsWord w) :=
  decidable_of_iff (isWordText w.toList = true ∧ (w ∉ bareWords ∧ w ≠ "Some") ∧
      ∀ f ∈ floatWords, clashes f.toList w.toList = false)
    ⟨fun h => ⟨h.1, h.2.1, h.2.2⟩, fun h => ⟨h.text, h.notBare, h.notFloat⟩⟩

def snapshotWords : List String :=
  ["relationship", "direction", "origin_node", "type_name", "properties", "label", "name",
    "operator", "value", "inbound", "outbound", "Equality", "Step", "RelationshipPick", "NodePick",
    "PropertySelection"]

theorem isWord_of_mem : ∀ w ∈ snapshotWords, IsWord w := by decide +kernel

/-- A character that opens a value which is no word. -/
def OpensBracket (c : Char) : Prop := c = '"' ∨ c = '(' ∨ c = '['

/-- The code points of letters, with the few marks between the two cases. -/
theorem bounds_of_isAlpha {c : Char} (h : c.isAlpha = true) : 65 ≤ c.toNat ∧ c.toNat ≤ 122 := by
  have hcase : c.isUpper = true ∨ c.isLower = true := (Bool.or_eq_true _ _).mp h
  rcases hcase with hupper | hlower
  · have hbounds : 65 ≤ c.toNat ∧ c.toNat ≤ 90 := of_decide_eq_true hupper
    omega
  · have hbounds : 97 ≤ c.toNat ∧ c.toNat ≤ 122 := by
      have hboth := (Bool.and_eq_true _ _).mp hlower
      exact ⟨of_decide_eq_true hboth.1, of_decide_eq_true hboth.2⟩
    omega

/-! ## Names -/

theorem isWordText_cases {cs : List Char} (h : isWordText cs = true) :
    ∃ c ds, cs = c :: ds ∧ c.isAlpha = true ∧ (∀ d ∈ ds, isIdentifierContinue d = true) ∧
      ∀ rest, opensQuoted (cs ++ rest) = false ∧
        ∀ ds, cs ++ rest ≠ 'r' :: '#' :: ds ∧ cs ++ rest ≠ 'b' :: '\'' :: ds := by
  unfold isWordText at h
  split at h
  · next c d e cs =>
    rw [Bool.and_eq_true, List.all_eq_true] at h
    obtain ⟨hc, hrest⟩ := h
    have hne : ∀ x ∈ d :: e :: cs, x ≠ '"' ∧ x ≠ '#' ∧ x ≠ '\'' := by
      intro x hx
      have := hrest x hx
      refine ⟨?_, ?_, ?_⟩ <;> rintro rfl <;> exact absurd this (by decide)
    have hd := hne d (by simp)
    refine ⟨c, d :: e :: cs, rfl, hc, ?_, ?_⟩
    · intro x hx
      have := hrest x hx
      unfold isIdentifierContinue
      rw [this, Bool.true_or]
    · intro rest
      refine ⟨?_, ?_⟩
      · simp only [List.cons_append]
        unfold opensQuoted
        split <;> simp_all
      · intro ds
        simp [hd]
  · cases h

/-- A letter and what a name goes on with, where no quoted text and no raw name opens. -/
theorem name_letters {c : Char} {ds rest : List Char} (hc : c.isAlpha = true)
    (hds : ∀ d ∈ ds, isIdentifierContinue d = true) (hr : EndsName rest)
    (hquoted : opensQuoted (c :: (ds ++ rest)) = false)
    (hraw : ∀ es, c :: (ds ++ rest) ≠ 'r' :: '#' :: es) :
    name (c :: (ds ++ rest)) = some (⟨String.ofList (c :: ds), false⟩, rest) := by
  obtain ⟨htake, hdrop⟩ := takeWhile_append_ends hds hr
  have hstart : isNameStart c = true := by simp [isNameStart, isIdentifierStart, hc]
  unfold name
  rw [hquoted]
  simp only [Bool.false_eq_true, if_false]
  split
  · next heq => exact absurd heq (hraw _)
  · next heq =>
    obtain ⟨rfl, rfl⟩ := List.cons.inj heq
    rw [hstart, htake, hdrop]
    rfl
  · next heq => cases heq

theorem name_word {w : String} (h : IsWord w) {rest : List Char} (hr : EndsName rest) :
    name (w.toList ++ rest) = some (⟨w, false⟩, rest) := by
  obtain ⟨c, ds, hw, hc, hds, hopen⟩ := isWordText_cases h.text
  obtain ⟨hquoted, hraw⟩ := hopen rest
  have hname : String.ofList (c :: ds) = w := by rw [← hw, String.ofList_toList]
  rw [hw, List.cons_append] at hquoted hraw ⊢
  rw [name_letters hc hds hr hquoted fun es => (hraw es).1, hname]

theorem name_bracket {c : Char} (h : OpensBracket c) (cs : List Char) : name (c :: cs) = none := by
  rcases h with rfl | rfl | rfl <;> simp [name, opensQuoted, isNameStart, isIdentifierStart]

/-! ## What is no number -/

theorem firstOf_eq_none {α : Type} {readers : List (Reader α)} {cs : List Char}
    (h : ∀ r ∈ readers, r cs = none) : firstOf readers cs = none := by
  induction readers with
  | nil => rfl
  | cons r others ih =>
    rw [firstOf, h r List.mem_cons_self]
    exact ih fun r hr => h r (List.mem_cons_of_mem _ hr)

/-- Nor is a keyword read where the text breaks off. -/
theorem keyword_eq_none_of_prefix {wanted : String} {cs rest p : List Char}
    (h : clashes wanted.toList cs = false) (hp : p <+: cs ++ rest) : keyword wanted p = none := by
  unfold keyword
  cases hl : Reader.literal wanted.toList p with
  | none => rfl
  | some out =>
    obtain ⟨⟨⟩, tail⟩ := out
    have heq := Reader.eq_append_of_literal hl
    have hwanted : wanted.toList <+: cs ++ rest := List.IsPrefix.trans ⟨tail, heq.symm⟩ hp
    simp only [clashes, Bool.or_eq_false_iff] at h
    rcases List.prefix_or_prefix_of_prefix hwanted (List.prefix_append cs rest) with hp | hp
    · rw [← List.isPrefixOf_iff_prefix, h.1] at hp
      cases hp
    · rw [← List.isPrefixOf_iff_prefix, h.2] at hp
      cases hp

theorem keyword_eq_none {wanted : String} {cs : List Char}
    (h : clashes wanted.toList cs = false) (rest : List Char) :
    keyword wanted (cs ++ rest) = none :=
  keyword_eq_none_of_prefix h List.prefix_rfl

structure NotNumeral (c : Char) : Prop where
  digit : c.isDigit = false
  plus : c ≠ '+'
  minus : c ≠ '-'
  point : c ≠ '.'
  underscore : c ≠ '_'

theorem notNumeral_of_isAlpha {c : Char} (h : c.isAlpha = true) : NotNumeral c := by
  obtain ⟨hge, -⟩ := bounds_of_isAlpha h
  constructor
  · rw [Bool.eq_false_iff]
    intro hdigit
    have hle : c.toNat ≤ 57 := (Char.isDigit_iff_toNat.mp hdigit).2
    omega
  all_goals
    rintro rfl
    exact absurd h (by decide)

theorem hexValue_ge {c : Char} (h : c.isDigit = false) {d : Nat} (hd : hexValue c = some d) :
    10 ≤ d := by
  unfold hexValue at hd
  split at hd
  · next hc =>
    have hdigit : c.isDigit = true := by
      simpa [Char.isDigit] using And.intro (Char.le_def.mp hc.1) (Char.le_def.mp hc.2)
    rw [h] at hdigit
    cases hdigit
  · split at hd
    · grind
    · split at hd
      · grind
      · cases hd

theorem integer_eq_none {c : Char} (h : NotNumeral c) (cs : List Char) :
    integer (c :: cs) = none := by
  have hunsigned : unsigned (c :: cs) = c :: cs := by
    unfold unsigned
    split <;> simp_all [h.plus, h.minus]
  have hbase : splitBase (c :: cs) = (10, c :: cs) := by
    have hzero : c ≠ '0' := by
      rintro rfl
      exact absurd h.digit (by decide)
    unfold splitBase
    split <;> simp_all
  unfold integer
  simp only [hunsigned, hbase]
  by_cases hc : isIntegerChar c = true
  · obtain ⟨d, hd⟩ : ∃ d, hexValue c = some d := by
      simpa [isIntegerChar, h.underscore, Option.isSome_iff_exists] using hc
    have hge := hexValue_ge h.digit hd
    have hnone : digitsInBase 10 (c :: cs.takeWhile isIntegerChar) = none := by
      simp [digitsInBase, h.underscore, hd, Nat.not_lt.mpr hge]
    simp [hc, hnone]
  · simp [hc]

theorem float_eq_none {c : Char} (h : NotNumeral c) {cs : List Char}
    (hw : ∀ f ∈ floatWords, keyword f (c :: cs) = none) : float (c :: cs) = none := by
  have hwords : firstOf (floatWords.map keyword) (c :: cs) = none := by
    apply firstOf_eq_none
    intro r hr
    obtain ⟨f, hf, rfl⟩ := List.mem_map.mp hr
    exact hw f hf
  have hnumeral : ∀ ds, Numeral.ofChars? (c :: ds) = none := by
    intro ds
    have hsign : splitSign (c :: ds) = (false, c :: ds) := by
      unfold splitSign
      split <;> simp_all [h.plus, h.minus]
    have hfraction : splitFraction (c :: ds) = ([], c :: ds) := by
      unfold splitFraction
      split <;> simp_all [h.point]
    simp [Numeral.ofChars?, hsign, h.digit, hfraction]
  have hrun : floatRun (c :: cs) = [] ∨ ∃ ds, floatRun (c :: cs) = c :: ds := by
    rw [floatRun.eq_def]
    split
    · exact .inl rfl
    · exact .inl rfl
    · next heq =>
      obtain ⟨rfl, rfl⟩ := List.cons.inj heq
      split
      · exact .inr ⟨_, rfl⟩
      · exact .inl rfl
  have hnone : (withoutUnderscores false (floatRun (c :: cs))).bind Numeral.ofChars? = none := by
    rcases hrun with hrun | ⟨ds, hrun⟩
    · rw [hrun]
      rfl
    · rw [hrun, withoutUnderscores, if_neg h.underscore, Option.bind_map]
      simp [hnumeral]
  unfold float
  simp only [hwords, hnone]

theorem number_eq_none {c : Char} (h : NotNumeral c) {cs : List Char}
    (hw : ∀ f ∈ floatWords, keyword f (c :: cs) = none) : number (c :: cs) = none := by
  have hf := float_eq_none h hw
  have hi := integer_eq_none h cs
  simp [number, firstOf, hf, hi]

theorem range_eq_none {c : Char} (h : NotNumeral c) {cs : List Char}
    (hb : ∀ ds, c :: cs ≠ 'b' :: '\'' :: ds)
    (hw : ∀ f ∈ floatWords, keyword f (c :: cs) = none) : range (c :: cs) = none := by
  have hbyte : byte (c :: cs) = none := by
    unfold byte
    split
    · next heq => exact absurd heq (hb _)
    · rfl
  have hbound : bound (c :: cs) = none := by
    simp [bound, firstOf, hbyte, number_eq_none h hw]
  unfold range
  rw [hbound]
  simp only [Option.map_none, Option.getD_none]
  split <;> simp_all [h.point]

theorem range_word {w : String} (h : IsWord w) (rest : List Char) :
    range (w.toList ++ rest) = none := by
  obtain ⟨c, ds, hw, hc, -, hopen⟩ := isWordText_cases h.text
  have hkeyword : ∀ f ∈ floatWords, keyword f (w.toList ++ rest) = none :=
    fun f hf => keyword_eq_none (h.notFloat f hf) rest
  have hbyte := fun ds => ((hopen rest).2 ds).2
  rw [hw, List.cons_append] at hkeyword hbyte ⊢
  exact range_eq_none (notNumeral_of_isAlpha hc) hbyte hkeyword

theorem clashes_bracket {c : Char} (h : OpensBracket c) :
    ∀ f ∈ floatWords, clashes f.toList [c] = false := by
  rcases h with rfl | rfl | rfl <;> decide +kernel

theorem range_bracket {c : Char} (h : OpensBracket c) (cs : List Char) :
    range (c :: cs) = none := by
  refine range_eq_none ?_ ?_ ?_
  · rcases h with rfl | rfl | rfl <;> exact ⟨rfl, by decide, by decide, by decide, by decide⟩
  · rintro ds heq
    obtain ⟨rfl, -⟩ := List.cons.inj heq
    exact absurd h (by simp [OpensBracket])
  · intro f hf
    exact keyword_eq_none (clashes_bracket h f hf) cs

end SchemaWalk.Ron
