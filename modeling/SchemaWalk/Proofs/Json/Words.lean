import SchemaWalk.Json.Printer
import SchemaWalk.Json.Reader

/-! # Words of JSON read back

A string has many spellings: a character stands raw, behind a backslash or as hexadecimal units. A
natural number has one, its digits. Each is read as what it spells, up to its end and no further;
a word that is passed over may be any that the grammar has. -/

namespace SchemaWalk.Json

open Decimal

/-! ## Blanks -/

def Gap (g : List Char) : Prop := ∀ c ∈ g, isBlank c = true

instance (g : List Char) : Decidable (Gap g) :=
  List.decidableBAll (fun c => isBlank c = true) g

theorem gap_nil : Gap [] := by
  intro c hc
  cases hc

theorem skipBlanks_gap {g : List Char} (h : Gap g) : skipBlanks g = [] := by
  have hdrop : (g ++ []).dropWhile isBlank = [].dropWhile isBlank :=
    List.dropWhile_append_of_pos h
  rwa [List.append_nil, List.dropWhile_nil] at hdrop

theorem skipBlanks_mark {g : List Char} (h : Gap g) {c : Char} (hc : isBlank c = false)
    (cs : List Char) : skipBlanks (g ++ c :: cs) = c :: cs := by
  rw [skipBlanks, List.dropWhile_append_of_pos h, List.dropWhile_cons_of_neg]
  simp [hc]

/-- What may follow a word between brackets, and nothing that goes on with it. -/
def EndsWord (rest : List Char) : Prop :=
  ∀ c ∈ rest.head?, isBlank c = true ∨ c = ',' ∨ c = ']' ∨ c = '\x7d'

theorem EndsWord.not_mem {rest : List Char} (h : EndsWord rest) {c : Char}
    (hc : ¬ (isBlank c = true ∨ c = ',' ∨ c = ']' ∨ c = '\x7d')) : c ∉ rest.head? := by
  intro hmem
  exact hc (h c hmem)

theorem endsWord_mark {g : List Char} (h : Gap g) {c : Char} (hc : c = ',' ∨ c = ']' ∨ c = '\x7d')
    (cs : List Char) : EndsWord (g ++ c :: cs) := by
  intro d hd
  cases g with
  | nil =>
    obtain rfl : c = d := Option.some.inj hd
    exact .inr hc
  | cons b g =>
    obtain rfl : b = d := Option.some.inj hd
    exact .inl (h b List.mem_cons_self)

/-! ## Strings -/

/-- A text, and a spelling of it between quotes. -/
inductive Spells : List Char → List Char → Prop where
  | nil : Spells [] []
  | raw {c cs w} : 0x20 ≤ c.toNat → c ≠ '"' → c ≠ '\\' → Spells cs w → Spells (c :: cs) (c :: w)
  | short {letter c cs w} : plainEscape letter = some c → Spells cs w →
      Spells (c :: cs) ('\\' :: letter :: w)
  | unit {x₁ x₂ x₃ x₄ n cs w} : hexUnit x₁ x₂ x₃ x₄ = some n → n < 0xd800 ∨ 0xdfff < n →
      Spells cs w → Spells (Char.ofNat n :: cs) ('\\' :: 'u' :: x₁ :: x₂ :: x₃ :: x₄ :: w)
  | pair {x₁ x₂ x₃ x₄ y₁ y₂ y₃ y₄ high low cs w} :
      hexUnit x₁ x₂ x₃ x₄ = some high → 0xd800 ≤ high → high ≤ 0xdbff →
      hexUnit y₁ y₂ y₃ y₄ = some low → 0xdc00 ≤ low → low ≤ 0xdfff → Spells cs w →
      Spells (Char.ofNat (0x10000 + 0x400 * (high - 0xd800) + (low - 0xdc00)) :: cs)
        ('\\' :: 'u' :: x₁ :: x₂ :: x₃ :: x₄ :: '\\' :: 'u' :: y₁ :: y₂ :: y₃ :: y₄ :: w)

theorem stringTail_raw {c : Char} (h : 0x20 ≤ c.toNat) (hquote : c ≠ '"') (hslash : c ≠ '\\')
    (cs : List Char) :
    stringTail (c :: cs) = (stringTail cs).map fun (text, rest) => (c :: text, rest) := by
  have hraw : ¬ (c.toNat < 0x20 ∨ c = '\\') := by
    rintro (hcontrol | hc)
    · omega
    · exact hslash hc
  rw [stringTail, if_neg hraw]
  · exact hquote
  · exact fun _ _ _ _ _ hc _ => hslash hc
  · exact fun _ _ hc _ => hslash hc

theorem stringTail_short {letter c : Char} (h : plainEscape letter = some c) (cs : List Char) :
    stringTail ('\\' :: letter :: cs) =
      (stringTail cs).map fun (text, rest) => (c :: text, rest) := by
  have hletter : letter ≠ 'u' := by
    rintro rfl
    cases h
  rw [stringTail, h]
  exact fun _ _ _ _ _ hu _ => hletter hu

/-- Every spelling of a text is read as the text. -/
theorem stringTail_spells {cs w : List Char} (h : Spells cs w) (rest : List Char) :
    stringTail (w ++ '"' :: rest) = some (cs, rest) := by
  induction h with
  | nil => rw [List.nil_append, stringTail]
  | raw hc hquote hslash _ ih =>
    rw [List.cons_append, stringTail_raw hc hquote hslash, ih]
    rfl
  | short hletter _ ih =>
    rw [List.cons_append, List.cons_append, stringTail_short hletter, ih]
    rfl
  | unit hunit hn _ ih =>
    simp only [List.cons_append]
    rw [stringTail, hunit]
    simp only [if_pos hn, ih, Option.map_some]
  | pair hhigh hfrom hto hlow hfrom' hto' _ ih =>
    simp only [List.cons_append]
    rw [stringTail, hhigh]
    simp only [hlow, hfrom', hto', ih, Option.map_some, and_self, if_true]
    rw [if_neg (by omega), if_neg (by omega)]

theorem stringWord_spells {s : String} {w : List Char} (h : Spells s.toList w) (rest : List Char) :
    stringWord ('"' :: (w ++ '"' :: rest)) = some (s, rest) := by
  rw [stringWord, stringTail_spells h]
  simp

/-! ## Escapes -/

theorem controlEscape_units : ∀ n < 0x20, ∃ x₁ x₂ x₃ x₄, hexUnit x₁ x₂ x₃ x₄ = some n ∧
    controlEscape (Char.ofNat n) = ['\\', 'u', x₁, x₂, x₃, x₄] := by
  intro n hn
  refine ⟨'0', '0', Nat.digitChar (n / 16), Nat.digitChar (n % 16), ?_⟩
  revert n
  decide

/-- A character has a letter of its own behind a backslash, or is a control character, or stands
as it is. -/
theorem escapeChar_cases (c : Char) :
    (∃ letter, escapeChar c = ['\\', letter] ∧ plainEscape letter = some c) ∨
      (c.toNat < 0x20 ∧ escapeChar c = controlEscape c) ∨
      (0x20 ≤ c.toNat ∧ c ≠ '"' ∧ c ≠ '\\' ∧ escapeChar c = [c]) := by
  by_cases hshort : c ∈ ['"', '\\', '\x08', '\x0c', '\n', '\r', '\t']
  · left
    simp only [List.mem_cons, List.not_mem_nil, or_false] at hshort
    rcases hshort with rfl | rfl | rfl | rfl | rfl | rfl | rfl <;> exact ⟨_, rfl, rfl⟩
  · right
    simp only [List.mem_cons, List.not_mem_nil, or_false, not_or] at hshort
    obtain ⟨hquote, hslash, hb, hf, hn, hr, ht⟩ := hshort
    by_cases hcontrol : c.toNat < 0x20
    · left
      refine ⟨hcontrol, ?_⟩
      simp only [escapeChar, hquote, hslash, hb, hf, hn, hr, ht, hcontrol, if_true, if_false]
    · right
      refine ⟨by omega, hquote, hslash, ?_⟩
      simp only [escapeChar, hquote, hslash, hb, hf, hn, hr, ht, hcontrol, if_false]

theorem spells_escapeChar (c : Char) {cs w : List Char} (h : Spells cs w) :
    Spells (c :: cs) (escapeChar c ++ w) := by
  rcases escapeChar_cases c with
    ⟨letter, heq, hletter⟩ | ⟨hcontrol, heq⟩ | ⟨hle, hquote, hslash, heq⟩
  · rw [heq]
    exact .short hletter h
  · obtain ⟨x₁, x₂, x₃, x₄, hunit, hescape⟩ := controlEscape_units c.toNat hcontrol
    have hspells := Spells.unit hunit (.inl (by omega)) h
    rw [Char.ofNat_toNat] at hescape hspells
    rw [heq, hescape]
    exact hspells
  · rw [heq]
    exact .raw hle hquote hslash h

/-- What is written for a text spells it. -/
theorem spells_escape (cs : List Char) : Spells cs (cs.flatMap escapeChar) := by
  induction cs with
  | nil => exact .nil
  | cons c cs ih => exact spells_escapeChar c ih

theorem quote_spells (s : String) :
    ∃ w, Spells s.toList w ∧ (quote s).toList = '"' :: (w ++ ['"']) :=
  ⟨_, spells_escape s.toList, by simp [quote]⟩

/-! ## Strings that are passed over -/

/-- What may stand between quotes, be it a text or not: surrogates need not come in pairs. -/
inductive Quotable : List Char → Prop where
  | nil : Quotable []
  | raw {c w} : 0x20 ≤ c.toNat → c ≠ '"' → c ≠ '\\' → Quotable w → Quotable (c :: w)
  | short {letter w} : (plainEscape letter).isSome → Quotable w → Quotable ('\\' :: letter :: w)
  | unit {x₁ x₂ x₃ x₄ w} : (hexUnit x₁ x₂ x₃ x₄).isSome → Quotable w →
      Quotable ('\\' :: 'u' :: x₁ :: x₂ :: x₃ :: x₄ :: w)

theorem skipStringTail_quotable {w : List Char} (h : Quotable w) (rest : List Char) :
    skipStringTail (w ++ '"' :: rest) = some ((), rest) := by
  induction h with
  | nil => rw [List.nil_append, skipStringTail]
  | raw hc hquote hslash _ ih =>
    rw [List.cons_append, skipStringTail, ih, if_neg]
    · rintro (hcontrol | hc)
      · omega
      · exact hslash hc
    · exact hquote
    · exact fun _ _ _ _ _ hc _ => hslash hc
    · exact fun _ _ hc _ => hslash hc
  | short hletter _ ih =>
    rw [List.cons_append, List.cons_append, skipStringTail, ih, if_pos hletter]
    rintro _ _ _ _ _ rfl
    cases hletter
  | unit hunit _ ih =>
    simp only [List.cons_append]
    rw [skipStringTail, ih, if_pos hunit]

/-! ## Numbers -/

def IsDigits (ds : List Char) : Prop := ds ≠ [] ∧ ∀ d ∈ ds, d.isDigit = true

def NoDigit (rest : List Char) : Prop := ∀ c ∈ rest.head?, c.isDigit = false

/-- Digits without a needless zero in front. -/
structure WholeText (ds : List Char) : Prop where
  digits : IsDigits ds
  front : ¬ (ds.head? = some '0' ∧ 1 < ds.length)

inductive FractionText : List Char → Prop where
  | nil : FractionText []
  | point {ds} : IsDigits ds → FractionText ('.' :: ds)

inductive ExponentText : List Char → Prop where
  | nil : ExponentText []
  | power {c sign ds} : c = 'e' ∨ c = 'E' → sign = [] ∨ sign = ['+'] ∨ sign = ['-'] →
      IsDigits ds → ExponentText (c :: (sign ++ ds))

inductive NumberText : List Char → Prop where
  | mk {sign whole fraction exponent} : sign = [] ∨ sign = ['-'] → WholeText whole →
      FractionText fraction → ExponentText exponent →
      NumberText (sign ++ (whole ++ (fraction ++ exponent)))

theorem not_isDigit_of_isBlank {c : Char} (h : isBlank c = true) : c.isDigit = false := by
  simp only [isBlank, Bool.or_eq_true, beq_iff_eq] at h
  rcases h with ((rfl | rfl) | rfl) | rfl <;> rfl

theorem EndsWord.noDigit {rest : List Char} (h : EndsWord rest) : NoDigit rest := by
  intro c hc
  rcases h c hc with hblank | rfl | rfl | rfl
  · exact not_isDigit_of_isBlank hblank
  · rfl
  · rfl
  · rfl

theorem someDigits_append {ds rest : List Char} (h : IsDigits ds) (hr : NoDigit rest) :
    someDigits (ds ++ rest) = some (ds, rest) := by
  obtain ⟨hne, hall⟩ := h
  have hstop : ∀ c cs, rest = c :: cs → c.isDigit = false := by
    rintro c cs rfl
    exact hr c rfl
  obtain ⟨htake, hdrop⟩ := takeWhile_append_ends hall hstop
  rw [someDigits, htake, hdrop]
  simp [hne]

theorem fractionWord_nil {rest : List Char} (h : '.' ∉ rest.head?) :
    fractionWord rest = some ([], rest) := by
  unfold fractionWord
  split
  · exact absurd rfl h
  · rfl

theorem exponentWord_nil {rest : List Char} (he : 'e' ∉ rest.head?) (hE : 'E' ∉ rest.head?) :
    exponentWord rest = some (none, rest) := by
  cases rest with
  | nil => rfl
  | cons c rest =>
    rw [exponentWord, if_neg]
    rintro (rfl | rfl)
    · exact he rfl
    · exact hE rfl

theorem exponentWord_text {exponent rest : List Char} (h : ExponentText exponent)
    (hr : EndsWord rest) : ∃ power, exponentWord (exponent ++ rest) = some (power, rest) := by
  cases h with
  | nil => exact ⟨none, exponentWord_nil (hr.not_mem (by decide)) (hr.not_mem (by decide))⟩
  | @power c sign ds hc hsign hds =>
    have hsplit : ∃ negative, splitSign (sign ++ (ds ++ rest)) = (negative, ds ++ rest) := by
      rcases hsign with rfl | rfl | rfl
      · obtain ⟨hne, hall⟩ := hds
        cases ds with
        | nil => exact absurd rfl hne
        | cons d ds =>
          have hd := hall d List.mem_cons_self
          refine ⟨false, ?_⟩
          rw [List.nil_append, List.cons_append, splitSign]
          · rintro _ heq
            obtain ⟨rfl, -⟩ := List.cons.inj heq
            cases hd
          · rintro _ heq
            obtain ⟨rfl, -⟩ := List.cons.inj heq
            cases hd
      · exact ⟨false, rfl⟩
      · exact ⟨true, rfl⟩
    obtain ⟨negative, hsplit⟩ := hsplit
    rw [List.cons_append, List.append_assoc, exponentWord, if_pos hc, hsplit]
    simp only [someDigits_append hds hr.noDigit]
    exact ⟨_, rfl⟩

theorem fractionWord_text {fraction rest : List Char} (h : FractionText fraction)
    (hr : NoDigit rest) (hpoint : '.' ∉ rest.head?) :
    ∃ digits, fractionWord (fraction ++ rest) = some (digits, rest) := by
  cases h with
  | nil => exact ⟨[], fractionWord_nil hpoint⟩
  | point hds => exact ⟨_, someDigits_append hds hr⟩

/-- A number is read up to where its parts end. -/
theorem numberWord_parts {sign whole behind behind' rest fraction : List Char} {power : Option Int}
    (hsign : sign = [] ∨ sign = ['-']) (hwhole : WholeText whole) (hbehind : NoDigit behind)
    (hfraction : fractionWord behind = some (fraction, behind'))
    (hpower : exponentWord behind' = some (power, rest)) :
    numberWord (sign ++ (whole ++ behind)) =
      some (⟨sign != [], whole, fraction, power⟩, rest) := by
  have hwholeWord := someDigits_append hwhole.digits hbehind
  rcases hsign with rfl | rfl
  · have hminus : ∀ tail, whole ++ behind ≠ '-' :: tail := by
      intro tail heq
      obtain ⟨hne, hall⟩ := hwhole.digits
      cases whole with
      | nil => exact hne rfl
      | cons d ds =>
        obtain ⟨rfl, -⟩ := List.cons.inj heq
        exact absurd (hall '-' List.mem_cons_self) (by decide)
    rw [List.nil_append, numberWord]
    · simp only [hwholeWord, Option.bind_eq_bind, Option.bind_some, if_neg hwhole.front,
        hfraction, hpower]
      rfl
    · exact hminus
  · rw [List.singleton_append, numberWord]
    simp only [hwholeWord, Option.bind_eq_bind, Option.bind_some, if_neg hwhole.front,
      hfraction, hpower]
    rfl

theorem numberWord_text {text rest : List Char} (h : NumberText text) (hr : EndsWord rest) :
    ∃ w, numberWord (text ++ rest) = some (w, rest) := by
  obtain @⟨sign, whole, fraction, exponent, hsign, hwhole, hfraction, hexponent⟩ := h
  obtain ⟨power, hpower⟩ := exponentWord_text hexponent hr
  have hbehind : NoDigit (exponent ++ rest) ∧ '.' ∉ (exponent ++ rest).head? := by
    cases hexponent with
    | nil => exact ⟨hr.noDigit, hr.not_mem (by decide)⟩
    | power hc _ _ =>
      rcases hc with rfl | rfl
      · exact ⟨by rintro c ⟨⟩; decide, by rintro ⟨⟩⟩
      · exact ⟨by rintro c ⟨⟩; decide, by rintro ⟨⟩⟩
  obtain ⟨digits, hdigits⟩ := fractionWord_text hfraction hbehind.1 hbehind.2
  have hnoDigit : NoDigit (fraction ++ (exponent ++ rest)) := by
    cases hfraction with
    | nil => exact hbehind.1
    | point _ =>
      rintro c ⟨⟩
      decide
  have hnumber := numberWord_parts hsign hwhole hnoDigit hdigits hpower
  simp only [List.append_assoc]
  exact ⟨_, hnumber⟩

/-! ## Natural numbers -/

theorem digitChar_ne_zero : ∀ d < 10, 0 < d → [Nat.digitChar d].head? ≠ some '0' := by decide

theorem head?_toDigits {n : Nat} (h : 0 < n) : (Nat.toDigits 10 n).head? ≠ some '0' := by
  -- The last digit is split off, so the first one is that of a smaller number.
  induction n using Nat.strongRecOn with
  | ind n ih =>
    by_cases hn : n < 10
    · rw [Nat.toDigits_of_lt_base hn]
      exact digitChar_ne_zero n hn h
    · have hdigits := Nat.toDigits_of_base_le (b := 10) (by decide) (Nat.le_of_not_lt hn)
      have hfront := ih (n / 10) (by omega) (by omega)
      rw [hdigits, List.head?_append]
      cases hhead : (Nat.toDigits 10 (n / 10)).head? with
      | none =>
        rw [List.head?_eq_none_iff] at hhead
        exact absurd hhead Nat.toDigits_ne_nil
      | some c =>
        rw [hhead] at hfront
        exact hfront

theorem wholeText_toDigits (n : Nat) : WholeText (Nat.toDigits 10 n) where
  digits := by
    refine ⟨Nat.toDigits_ne_nil, ?_⟩
    intro d hd
    exact Nat.isDigit_of_mem_toDigits (by decide) (by decide) hd
  front := by
    rintro ⟨hzero, hlength⟩
    by_cases hn : n = 0
    · subst hn
      exact absurd hlength (by decide)
    · exact head?_toDigits (by omega) hzero

theorem digitsValue_toDigits (n : Nat) : digitsValue (Nat.toDigits 10 n) = n :=
  Nat.ofDigitChars_ten_toDigits

theorem value_toDigits {n : Nat} {j : Json} (h : ofNat? n = some j) :
    (NumberWord.mk false (Nat.toDigits 10 n) [] none).value.map .number = some j := by
  obtain ⟨hn, hj⟩ := Option.dite_none_right_eq_some.mp h
  have hsize : UInt64.size = 18446744073709551616 := rfl
  have hinteger : (NumberWord.mk false (Nat.toDigits 10 n) [] none).integer? = some (n : Int) := by
    simp only [NumberWord.integer?, digitsValue_toDigits, List.isEmpty_nil, Option.isNone_none,
      Bool.and_self, if_true, Bool.false_eq_true, if_false, if_pos hn]
  rw [NumberWord.value, hinteger, ← hj]
  simp only
  rw [dif_pos (by omega)]
  rfl

/-- A natural number of 64 bits is read from its digits. -/
theorem numberWord_toDigits (n : Nat) {rest : List Char} (hr : EndsWord rest) :
    numberWord (Nat.toDigits 10 n ++ rest) = some (⟨false, Nat.toDigits 10 n, [], none⟩, rest) := by
  exact numberWord_parts (.inl rfl) (wholeText_toDigits n) hr.noDigit
    (fractionWord_nil (hr.not_mem (by decide)))
    (exponentWord_nil (hr.not_mem (by decide)) (hr.not_mem (by decide)))

end SchemaWalk.Json
