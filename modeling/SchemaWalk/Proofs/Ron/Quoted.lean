import SchemaWalk.Ron.Quoted
import SchemaWalk.Text.Escape

/-! # Quoted text reads back

Every character is escaped on its own, and each escape is one unit for the reader. So a quoted
text of any characters is read as itself, up to its closing quote and no further. -/

namespace SchemaWalk.Ron

open Text

/-! ## Code points -/

theorem hexValue_digitChar : ∀ d < 16, hexValue (Nat.digitChar d) = some d := by decide

theorem digitChar_ne_brace : ∀ d < 16, Nat.digitChar d ≠ '\x7d' := by decide

theorem quotedUnits_hexDigit {count value d : Nat} (hc : count < 6) (hd : d < 16)
    (cs : List Char) :
    quotedUnits (.codePoint count value) (Nat.digitChar d :: cs) =
      quotedUnits (.codePoint (count + 1) (16 * value + d)) cs := by
  have hstep : (QuotedState.codePoint count value).step (Nat.digitChar d) =
      some (.codePoint (count + 1) (16 * value + d), none) := by
    simp [QuotedState.step, digitChar_ne_brace d hd, hexValue_digitChar d hd, hc]
  rw [quotedUnits, hstep]
  simp [QuotedState.closes]

theorem quotedUnits_hexDigits (n : Nat) (cs : List Char) (h : (hexDigits n).length ≤ 6) :
    quotedUnits (.codePoint 0 0) (hexDigits n ++ cs) =
      quotedUnits (.codePoint (hexDigits n).length n) cs := by
  -- Digits are read from the left, so the induction takes the last digit off.
  induction n using Nat.strongRecOn generalizing cs with
  | ind n ih =>
    unfold hexDigits at h ih ⊢
    by_cases hn : n < 16
    · rw [Nat.toDigits_of_lt_base hn] at h ⊢
      have hfirst : quotedUnits (.codePoint 0 0) (Nat.digitChar n :: cs) =
          quotedUnits (.codePoint 1 (16 * 0 + n)) cs := quotedUnits_hexDigit (by decide) hn cs
      simpa using hfirst
    · rw [Nat.toDigits_of_base_le (by decide) (by omega)] at h ⊢
      rw [List.length_append, List.length_singleton] at h ⊢
      have hlast : n % 16 < 16 := Nat.mod_lt n (by decide)
      have hvalue : 16 * (n / 16) + n % 16 = n := Nat.div_add_mod n 16
      rw [List.append_assoc, ih (n / 16) (by omega) _ (by omega), List.singleton_append,
        quotedUnits_hexDigit (by omega) hlast, hvalue]

theorem scalarValue_toNat (c : Char) : scalarValue c.toNat = some c := by
  have h : c.toNat < 0xd800 ∨ (0xdfff < c.toNat ∧ c.toNat < 0x110000) := c.valid
  simp [scalarValue, h]

theorem length_hexDigits_toNat (c : Char) :
    0 < (hexDigits c.toNat).length ∧ (hexDigits c.toNat).length ≤ 6 := by
  have hlt : c.toNat < 16 ^ 6 := by
    have h : c.toNat < 0xd800 ∨ (0xdfff < c.toNat ∧ c.toNat < 0x110000) := c.valid
    omega
  exact ⟨Nat.length_toDigits_pos, (Nat.length_toDigits_le_iff (by decide) (by decide)).mpr hlt⟩

/-! ## One character -/

/-- The unit that a written character is read as. -/
def writtenUnit (c : Char) : QuotedUnit :=
  match shortEscape c with
  | some _ => .byte c.toNat
  | none => if isGraphemeExtend c || isUnprintable c then .scalar c else .raw c

theorem shortEscape_eq_some {c letter : Char} (h : shortEscape c = some letter) :
    QuotedState.backslash.step letter = some (.plain, some (.byte c.toNat)) := by
  unfold shortEscape at h
  split at h <;> first | (obtain rfl := Option.some.inj h; rfl) | cases h

theorem shortEscape_eq_none {c : Char} (h : shortEscape c = none) : c ≠ '"' ∧ c ≠ '\\' := by
  constructor <;> rintro rfl <;> cases h

theorem quotedUnits_unicodeEscape (c : Char) (cs : List Char) :
    quotedUnits .plain (unicodeEscape c ++ cs) =
      (quotedUnits .plain cs).map fun (us, rest) => (.scalar c :: us, rest) := by
  obtain ⟨hpos, hle⟩ := length_hexDigits_toNat c
  have hopen : quotedUnits .plain (unicodeEscape c ++ cs) =
      quotedUnits (.codePoint 0 0) (hexDigits c.toNat ++ '\x7d' :: cs) := by
    simp [unicodeEscape, quotedUnits, QuotedState.step, QuotedState.closes, plainStep]
  rw [hopen, quotedUnits_hexDigits _ _ hle]
  simp [quotedUnits, QuotedState.step, QuotedState.closes, scalarValue_toNat,
    Nat.ne_of_gt hpos]

theorem quotedUnits_escapeChar (c : Char) (cs : List Char) :
    quotedUnits .plain (escapeChar c ++ cs) =
      (quotedUnits .plain cs).map fun (us, rest) => (writtenUnit c :: us, rest) := by
  unfold escapeChar writtenUnit
  cases h : shortEscape c with
  | some letter =>
    have hplain : QuotedState.plain.step '\\' = some (.backslash, none) := rfl
    simp only [List.cons_append, List.nil_append]
    rw [quotedUnits, hplain, if_neg (by simp)]
    simp only
    rw [quotedUnits, shortEscape_eq_some h]
    simp [QuotedState.closes]
  | none =>
    obtain ⟨hquote, hslash⟩ := shortEscape_eq_none h
    by_cases he : (isGraphemeExtend c || isUnprintable c) = true
    · simp only [he, if_true]
      exact quotedUnits_unicodeEscape c cs
    · simp [he, quotedUnits, QuotedState.step, plainStep, hquote, hslash]

/-! ## Whole texts -/

theorem quotedUnits_escape (cs rest : List Char) :
    quotedUnits .plain (escape cs ++ '"' :: rest) = some (cs.map writtenUnit, rest) := by
  induction cs with
  | nil => simp [escape, quotedUnits, QuotedState.closes]
  | cons c cs ih =>
    rw [escape, List.flatMap_cons, List.append_assoc, quotedUnits_escapeChar, ← escape, ih]
    rfl

theorem utf8Char?_short {c letter : Char} (h : shortEscape c = some letter) :
    utf8Length c.toNat = 1 ∧ utf8Char? [c.toNat] = some c := by
  unfold shortEscape at h
  split at h <;> first | decide +kernel | cases h

theorem unitsText_written (cs : List Char) : unitsText 0 (cs.map writtenUnit) = some cs := by
  induction cs with
  | nil => rfl
  | cons c cs ih =>
    rw [List.map_cons, writtenUnit]
    split
    · next letter h =>
      obtain ⟨hone, hchar⟩ := utf8Char?_short h
      simp [unitsText, hone, takeBytes, hchar, ih]
    · split <;> simp [unitsText, ih]

/-- A quoted text is read as itself, whatever follows it. -/
theorem string_quote (s : String) (rest : List Char) :
    string ((quote s).toList ++ rest) = some (s, rest) := by
  simp [quote, string, stringTail, quotedUnits_escape, unitsText_written]

end SchemaWalk.Ron
