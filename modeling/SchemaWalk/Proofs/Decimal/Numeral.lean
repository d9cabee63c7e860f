import Mathlib.Algebra.Order.Field.Basic
import Mathlib.Algebra.Order.Field.Rat
import Mathlib.Tactic.Linarith
import Mathlib.Tactic.NormNum
import Mathlib.Tactic.Positivity
import SchemaWalk.Decimal.Numeral
import SchemaWalk.Text.Reader

/-! # What a numeral denotes

A numeral is put together from a sign, digits with a point among them, and an exponent, and it
denotes a rational number. The reader takes exactly these texts, and what it compares with the
largest double is that number. -/

namespace SchemaWalk.Decimal

/-! ## Texts -/

def AllDigits (ds : List Char) : Prop := ∀ d ∈ ds, d.isDigit = true

/-- A sign, and the factor it stands for. -/
inductive SignText : List Char → ℤ → Prop where
  | none : SignText [] 1
  | plus : SignText ['+'] 1
  | minus : SignText ['-'] (-1)

/-- What stands behind the whole digits, and the digits in it. -/
inductive FractionText : List Char → List Char → Prop where
  | none : FractionText [] []
  | point {ds} : AllDigits ds → FractionText ('.' :: ds) ds

inductive PowerText : List Char → ℤ → Prop where
  | none : PowerText [] 0
  | power {e sign factor ds} : e = 'e' ∨ e = 'E' → SignText sign factor → ds ≠ [] →
      AllDigits ds → PowerText (e :: (sign ++ ds)) (factor * Nat.ofDigitChars 10 ds 0)

/-- The digits before and behind the point make one number, which the exponent and the place of
the point scale. -/
inductive MagnitudeText : List Char → ℚ → Prop where
  | mk {whole point fraction tail power} : AllDigits whole → FractionText point fraction →
      whole ++ fraction ≠ [] → PowerText tail power →
      MagnitudeText (whole ++ (point ++ tail))
        (Nat.ofDigitChars 10 (whole ++ fraction) 0 * 10 ^ (power - fraction.length))

inductive Denotes : List Char → ℚ → Prop where
  | mk {sign factor text x} : SignText sign factor → MagnitudeText text x →
      Denotes (sign ++ text) (factor * x)

theorem AllDigits.append {ds ds' : List Char} (h : AllDigits ds) (h' : AllDigits ds') :
    AllDigits (ds ++ ds') := by
  intro d hd
  exact (List.mem_append.mp hd).elim (h d) (h' d)

theorem FractionText.allDigits {point fraction : List Char} (h : FractionText point fraction) :
    AllDigits fraction := by
  cases h with
  | none =>
    intro d hd
    cases hd
  | point hds => exact hds

def signFactor (negative : Bool) : ℤ := if negative then -1 else 1

/-- The number that has been read. -/
def Numeral.value (n : Numeral) : ℚ :=
  signFactor n.negative * (digitsValue n.digits * 10 ^ n.power)

/-! ## Reading -/

theorem digitsValue_eq (ds : List Char) : digitsValue ds = Nat.ofDigitChars 10 ds 0 := rfl

theorem not_isDigit_sign : '+'.isDigit = false ∧ '-'.isDigit = false := by decide

/-- A sign is told from what stands behind it by not being a part of that. -/
theorem splitSign_append {sign rest : List Char} {factor : ℤ} (h : SignText sign factor)
    (hplus : '+' ∉ rest.head?) (hminus : '-' ∉ rest.head?) :
    ∃ negative, splitSign (sign ++ rest) = (negative, rest) ∧ signFactor negative = factor := by
  cases h with
  | none =>
    refine ⟨false, ?_, rfl⟩
    rw [List.nil_append, splitSign]
    · rintro tail rfl
      exact hplus rfl
    · rintro tail rfl
      exact hminus rfl
  | plus => exact ⟨false, rfl, rfl⟩
  | minus => exact ⟨true, rfl, rfl⟩

theorem signText_of_splitSign {cs rest : List Char} {negative : Bool}
    (h : splitSign cs = (negative, rest)) :
    ∃ sign, SignText sign (signFactor negative) ∧ cs = sign ++ rest := by
  unfold splitSign at h
  split at h
  · cases h
    exact ⟨['+'], .plus, rfl⟩
  · cases h
    exact ⟨['-'], .minus, rfl⟩
  · cases h
    exact ⟨[], .none, rfl⟩

theorem AllDigits.head?_ne {ds : List Char} (h : AllDigits ds) {c : Char}
    (hc : c.isDigit = false) : c ∉ ds.head? := by
  intro hmem
  have hdigit := h c (List.mem_of_mem_head? hmem)
  rw [hc] at hdigit
  cases hdigit

theorem readExponent_powerText {tail : List Char} {power : ℤ} (h : PowerText tail power) :
    readExponent tail = some power := by
  cases h with
  | none => rfl
  | @power e sign factor ds he hsign hne hds =>
    obtain ⟨negative, hsplit, hfactor⟩ := splitSign_append hsign
      (hds.head?_ne not_isDigit_sign.1) (hds.head?_ne not_isDigit_sign.2)
    have hdigits : (ds.isEmpty || !ds.all Char.isDigit) = false := by
      simp only [Bool.or_eq_false_iff, List.isEmpty_eq_false_iff, Bool.not_eq_false',
        List.all_eq_true]
      exact ⟨hne, hds⟩
    rw [readExponent, if_pos he, hsplit]
    simp only [hdigits, Bool.false_eq_true, if_false]
    rw [← hfactor]
    cases negative with
    | false => simp [signFactor, digitsValue_eq]
    | true => simp [signFactor, digitsValue_eq]

theorem powerText_of_readExponent {tail : List Char} {power : ℤ}
    (h : readExponent tail = some power) : PowerText tail power := by
  cases tail with
  | nil =>
    cases h
    exact .none
  | cons e rest =>
    rw [readExponent] at h
    obtain ⟨he, h⟩ := Option.ite_none_right_eq_some.mp h
    rcases hsplit : splitSign rest with ⟨negative, ds⟩
    obtain ⟨sign, hsign, rfl⟩ := signText_of_splitSign hsplit
    rw [hsplit] at h
    obtain ⟨hdigits, hpower⟩ := Option.ite_none_left_eq_some.mp h
    simp only [Bool.or_eq_true, not_or, Bool.not_eq_true, Bool.not_eq_false',
      List.isEmpty_eq_false_iff, List.all_eq_true] at hdigits
    have hvalue : signFactor negative * (Nat.ofDigitChars 10 ds 0 : ℤ) = power := by
      rw [← Option.some.inj hpower]
      cases negative with
      | false => simp [signFactor, digitsValue_eq]
      | true => simp [signFactor, digitsValue_eq]
    rw [← hvalue]
    exact .power he hsign hdigits.1 hdigits.2

/-- Neither a point nor an exponent opens with a digit. -/
theorem not_isDigit_head {point fraction tail : List Char} {power : ℤ}
    (hpoint : FractionText point fraction) (htail : PowerText tail power) :
    (∀ c ds, tail = c :: ds → c.isDigit = false) ∧
      ∀ c ds, point ++ tail = c :: ds → c.isDigit = false := by
  have hpower : ∀ c ds, tail = c :: ds → c.isDigit = false := by
    rintro c ds rfl
    cases htail with
    | power he _ _ _ => rcases he with rfl | rfl <;> rfl
  refine ⟨hpower, ?_⟩
  intro c ds heq
  cases hpoint with
  | none => exact hpower c ds heq
  | point _ =>
    obtain ⟨rfl, -⟩ := List.cons.inj heq
    rfl

theorem splitFraction_append {point fraction tail : List Char} {power : ℤ}
    (hpoint : FractionText point fraction) (htail : PowerText tail power) :
    splitFraction (point ++ tail) = (fraction, tail) := by
  cases hpoint with
  | none =>
    rw [List.nil_append, splitFraction]
    rintro rest rfl
    cases htail with
    | power he _ _ _ => rcases he with he | he <;> cases he
  | point hds =>
    obtain ⟨htake, hdrop⟩ := takeWhile_append_ends hds (not_isDigit_head .none htail).1
    rw [List.cons_append, splitFraction, htake, hdrop]

theorem fractionText_of_splitFraction {cs fraction tail : List Char}
    (h : splitFraction cs = (fraction, tail)) :
    ∃ point, FractionText point fraction ∧ cs = point ++ tail := by
  unfold splitFraction at h
  split at h
  · next rest =>
    cases h
    refine ⟨'.' :: rest.takeWhile Char.isDigit, .point ?_, ?_⟩
    · exact List.all_eq_true.mp List.all_takeWhile
    · rw [List.cons_append, List.takeWhile_append_dropWhile]
  · cases h
    exact ⟨[], .none, rfl⟩

/-- What is read is what the text denotes. -/
theorem denotes_of_ofChars? {cs : List Char} {n : Numeral} (h : Numeral.ofChars? cs = some n) :
    Denotes cs n.value ∧ AllDigits n.digits := by
  rcases hsplit : splitSign cs with ⟨negative, body⟩
  rcases hrest : splitFraction (body.dropWhile Char.isDigit) with ⟨fraction, tail⟩
  obtain ⟨sign, hsign, rfl⟩ := signText_of_splitSign hsplit
  obtain ⟨point, hpoint, hbehind⟩ := fractionText_of_splitFraction hrest
  simp only [Numeral.ofChars?, hsplit, hrest] at h
  obtain ⟨hsome, h⟩ := Option.ite_none_left_eq_some.mp h
  obtain ⟨power, hpower, rfl⟩ := Option.map_eq_some_iff.mp h
  have hwhole : AllDigits (body.takeWhile Char.isDigit) :=
    List.all_eq_true.mp List.all_takeWhile
  have hdigits : body.takeWhile Char.isDigit ++ fraction ≠ [] := by
    simpa only [Bool.and_eq_true, List.isEmpty_iff, ne_eq, List.append_eq_nil_iff] using hsome
  have hmagnitude := MagnitudeText.mk hwhole hpoint hdigits (powerText_of_readExponent hpower)
  rw [← hbehind, List.takeWhile_append_dropWhile] at hmagnitude
  exact ⟨.mk hsign hmagnitude, hwhole.append hpoint.allDigits⟩

theorem ofChars?_of_denotes {cs : List Char} {x : ℚ} (h : Denotes cs x) :
    ∃ n, Numeral.ofChars? cs = some n ∧ n.value = x := by
  obtain @⟨sign, factor, text, x, hsign, hmagnitude⟩ := h
  obtain @⟨whole, point, fraction, tail, power, hwhole, hpoint, hdigits, htail⟩ := hmagnitude
  obtain ⟨htake, hdrop⟩ := takeWhile_append_ends hwhole (not_isDigit_head hpoint htail).2
  have hfraction := splitFraction_append hpoint htail
  have hfront : ∀ c : Char, c.isDigit = false → c ≠ '.' →
      c ∉ (whole ++ (point ++ tail)).head? := by
    intro c hc hne hmem
    cases whole with
    | nil =>
      cases hpoint with
      | none => exact hdigits rfl
      | point _ => exact hne (Option.some.inj hmem).symm
    | cons d ds => exact hwhole.head?_ne hc hmem
  obtain ⟨negative, hsplit, hfactor⟩ := splitSign_append hsign
    (hfront '+' not_isDigit_sign.1 (by decide)) (hfront '-' not_isDigit_sign.2 (by decide))
  have hsome : (whole.isEmpty && fraction.isEmpty) = false := by
    rw [Bool.eq_false_iff]
    simpa only [Bool.and_eq_true, List.isEmpty_iff, ne_eq, List.append_eq_nil_iff] using hdigits
  refine ⟨⟨negative, whole ++ fraction, power - fraction.length⟩, ?_, ?_⟩
  · simp only [Numeral.ofChars?, hsplit, htake, hdrop, hfraction, hsome, Bool.false_eq_true,
      if_false, readExponent_powerText htail, Option.map_some]
  · rw [Numeral.value, hfactor, digitsValue_eq]

theorem denotes_iff {cs : List Char} {x : ℚ} :
    Denotes cs x ↔ ∃ n, Numeral.ofChars? cs = some n ∧ n.value = x := by
  constructor
  · exact ofChars?_of_denotes
  · rintro ⟨n, hn, rfl⟩
    exact (denotes_of_ofChars? hn).1

/-- A text denotes one number at most. -/
theorem Denotes.unique {cs : List Char} {x y : ℚ} (hx : Denotes cs x) (hy : Denotes cs y) :
    x = y := by
  obtain ⟨n, hn, rfl⟩ := denotes_iff.mp hx
  obtain ⟨m, hm, rfl⟩ := denotes_iff.mp hy
  rw [hn] at hm
  rw [Option.some.inj hm]

/-! ## Size -/

theorem digitsValue_lt {ds : List Char} (h : AllDigits ds) :
    digitsValue ds < 10 ^ ds.length := by
  induction ds with
  | nil => decide
  | cons d ds ih =>
    have hrest := ih fun c hc => h c (List.mem_cons_of_mem d hc)
    have hd : d.toNat - '0'.toNat < 10 := by
      have hdigit := h d List.mem_cons_self
      simp only [Char.isDigit, Bool.and_eq_true, decide_eq_true_eq] at hdigit
      have hnine : d.toNat ≤ 57 := hdigit.2
      have hzero : '0'.toNat = 48 := rfl
      omega
    rw [digitsValue_eq] at hrest ⊢
    rw [Nat.ofDigitChars_cons, Nat.ofDigitChars_eq_ofDigitChars_zero, Nat.mul_zero, Nat.zero_add,
      List.length_cons, Nat.pow_succ]
    have hfront : 10 ^ ds.length * (d.toNat - '0'.toNat) ≤ 10 ^ ds.length * 9 :=
      Nat.mul_le_mul_left _ (by omega)
    omega

theorem cast_overflowBound : (Numeral.overflowBound : ℚ) = 2 ^ 1024 - 2 ^ 970 := by
  have hcast : ∀ low high, low ≤ high →
      ((Nat.pow 2 high - Nat.pow 2 low : ℕ) : ℚ) = 2 ^ high - 2 ^ low := by
    intro low high h
    have hle : 2 ^ low ≤ 2 ^ high := Nat.pow_le_pow_right (by decide) h
    rw [Nat.pow_eq, Nat.pow_eq, Nat.cast_sub hle, Nat.cast_pow, Nat.cast_pow, Nat.cast_ofNat]
  rw [Numeral.overflowBound, hcast 970 1024 (by decide)]

theorem overflowBound_le {m p : Nat} (hm : 0 < m) (hp : 309 ≤ p) :
    Numeral.overflowBound ≤ m * 10 ^ p := by
  have hpow : ∀ q ≤ p, 10 ^ q ≤ m * 10 ^ p := by
    intro q hq
    exact (Nat.pow_le_pow_right (by decide) hq).trans (Nat.le_mul_of_pos_left _ hm)
  have hbound : Numeral.overflowBound ≤ 10 ^ 309 := by decide +kernel
  exact hbound.trans (hpow 309 hp)

theorem abs_value (n : Numeral) :
    |n.value| = (digitsValue n.digits : ℚ) * 10 ^ n.power := by
  have hsign : |(signFactor n.negative : ℚ)| = 1 := by
    cases n.negative with
    | false => simp [signFactor]
    | true => simp [signFactor]
  have hpos : (0 : ℚ) < 10 ^ n.power := zpow_pos (by norm_num) n.power
  rw [Numeral.value, abs_mul, abs_mul, hsign, one_mul, abs_of_pos hpos, Nat.abs_cast]

/-- A number above zero with a large power is past the bound without being written out. -/
theorem isFinite_ofNat_iff (negative : Bool) (digits : List Char) (p : ℕ) :
    (Numeral.mk negative digits (.ofNat p)).isFinite = true ↔
      digitsValue digits * 10 ^ p < Numeral.overflowBound := by
  simp only [Numeral.isFinite, Bool.or_eq_true, beq_iff_eq, Bool.and_eq_true, decide_eq_true_eq]
  constructor
  · rintro (hzero | ⟨-, hsmall⟩)
    · rw [hzero, Nat.zero_mul]
      decide +kernel
    · exact hsmall
  · intro hsmall
    by_cases hzero : digitsValue digits = 0
    · exact .inl hzero
    · refine .inr ⟨?_, hsmall⟩
      by_contra hp
      have hlarge := overflowBound_le (Nat.pos_of_ne_zero hzero) (by omega : 309 ≤ p)
      omega

/-- A number with no more digits than it is scaled down by is below one. -/
theorem isFinite_negSucc_iff {digits : List Char} (h : AllDigits digits) (negative : Bool) (p : ℕ) :
    (Numeral.mk negative digits (.negSucc p)).isFinite = true ↔
      digitsValue digits < Numeral.overflowBound * 10 ^ (p + 1) := by
  have hlt : digitsValue digits < 10 ^ digits.length := digitsValue_lt h
  simp only [Numeral.isFinite, Bool.or_eq_true, decide_eq_true_eq]
  constructor
  · rintro (hlength | hsmall)
    · have hpow : 10 ^ digits.length ≤ 10 ^ (p + 1) := Nat.pow_le_pow_right (by decide) hlength
      have hone : 1 * 10 ^ (p + 1) ≤ Numeral.overflowBound * 10 ^ (p + 1) :=
        Nat.mul_le_mul_right _ (by decide +kernel)
      omega
    · exact hsmall
  · exact .inr

theorem isFinite_iff {n : Numeral} (h : AllDigits n.digits) :
    n.isFinite = true ↔ |n.value| < 2 ^ 1024 - 2 ^ 970 := by
  obtain ⟨negative, digits, power⟩ := n
  rw [abs_value, ← cast_overflowBound]
  cases power with
  | ofNat p =>
    rw [isFinite_ofNat_iff, Int.ofNat_eq_natCast, zpow_natCast]
    exact_mod_cast Iff.rfl
  | negSucc p =>
    rw [isFinite_negSucc_iff h, zpow_negSucc, ← div_eq_mul_inv, div_lt_iff₀ (by positivity)]
    exact_mod_cast Iff.rfl

theorem isFiniteNumeral_iff {s : String} :
    isFiniteNumeral s = true ↔ ∃ x, Denotes s.toList x ∧ |x| < 2 ^ 1024 - 2 ^ 970 := by
  rw [isFiniteNumeral]
  constructor
  · intro h
    cases hn : Numeral.ofChars? s.toList with
    | none => simp [hn] at h
    | some n =>
      obtain ⟨hdenotes, hdigits⟩ := denotes_of_ofChars? hn
      rw [hn] at h
      exact ⟨n.value, hdenotes, (isFinite_iff hdigits).mp h⟩
  · rintro ⟨x, hx, hsmall⟩
    obtain ⟨n, hn, rfl⟩ := denotes_iff.mp hx
    rw [hn]
    exact (isFinite_iff (denotes_of_ofChars? hn).2).mpr hsmall

end SchemaWalk.Decimal
