import SchemaWalk.Proofs.Cypher.Literal
import SchemaWalk.Proofs.Json.Numbers
import SchemaWalk.Row

/-! # Which literal a value becomes

The two words for booleans, numerals of finite size, and all other texts share out the values among
them, and a literal never says less than its value. A scalar that comes out of a row and goes back
as a filter stays a number or a boolean if it was one. -/

namespace SchemaWalk.Cypher

open Decimal

/-- Reads as a number that a double can hold. -/
def IsNumber (v : String) : Prop := ∃ x, Denotes v.toList x ∧ |x| < 2 ^ 1024 - 2 ^ 970

theorem IsNumber.exists_numeral {v : String} (h : IsNumber v) :
    ∃ n, Numeral.ofChars? v.toList = some n := by
  obtain ⟨x, hx, -⟩ := h
  obtain ⟨n, hn, -⟩ := denotes_iff.mp hx
  exact ⟨n, hn⟩

theorem IsNumber.ne_word {v : String} (h : IsNumber v) : v ≠ "true" ∧ v ≠ "false" := by
  obtain ⟨n, hn⟩ := h.exists_numeral
  constructor
  · rintro rfl
    cases hn
  · rintro rfl
    cases hn

theorem encode_number {v : String} (h : IsNumber v) : Literal.encode v = .number v := by
  rw [Literal.encode, if_neg h.ne_word.1, if_neg h.ne_word.2, if_pos (isFiniteNumeral_iff.mpr h)]

theorem encode_text {v : String} (htrue : v ≠ "true") (hfalse : v ≠ "false")
    (h : ¬ IsNumber v) : Literal.encode v = .text v := by
  rw [Literal.encode, if_neg htrue, if_neg hfalse, if_neg (mt isFiniteNumeral_iff.mp h)]

/-- Every value is of one kind, and its literal is of the same. -/
theorem encode_cases (v : String) :
    (∃ b, v = (if b then "true" else "false") ∧ Literal.encode v = .bool b ∧ ¬ IsNumber v) ∨
      (IsNumber v ∧ Literal.encode v = .number v) ∨
      (v ≠ "true" ∧ v ≠ "false" ∧ ¬ IsNumber v ∧ Literal.encode v = .text v) := by
  by_cases htrue : v = "true"
  · subst htrue
    exact .inl ⟨true, rfl, rfl, fun h => h.ne_word.1 rfl⟩
  by_cases hfalse : v = "false"
  · subst hfalse
    exact .inl ⟨false, rfl, rfl, fun h => h.ne_word.2 rfl⟩
  by_cases hnumber : IsNumber v
  · exact .inr (.inl ⟨hnumber, encode_number hnumber⟩)
  · exact .inr (.inr ⟨htrue, hfalse, hnumber, encode_text htrue hfalse hnumber⟩)

theorem render_encode (v : String) :
    (Literal.encode v).render = if (Literal.encode v).isBare then v else "'" ++ v ++ "'" := by
  rcases encode_cases v with ⟨b, hv, hencode, -⟩ | ⟨-, hencode⟩ | ⟨-, -, -, hencode⟩
  · rw [hencode, hv]
    rfl
  · rw [hencode]
    rfl
  · rw [hencode]
    rfl

/-- A bare literal has no quote in it, so it is not the literal of a text. -/
theorem render_encode_injective {v w : String}
    (h : (Literal.encode v).render = (Literal.encode w).render) : v = w := by
  have hmixed : ∀ {bare text : String}, (∀ c ∈ bare.toList, IsBareChar c) →
      bare ≠ "'" ++ text ++ "'" := by
    rintro bare text hbare rfl
    exact not_mem_bare hbare (c := '\'') (by decide) (by simp)
  rcases render_encode_cases v with ⟨hv, hbare⟩ | hv <;>
    rcases render_encode_cases w with ⟨hw, hbare'⟩ | hw <;> rw [hv, hw] at h
  · exact h
  · exact absurd h (hmixed hbare)
  · exact absurd h.symm (hmixed hbare')
  · have hlist := congrArg String.toList h
    simp only [String.toList_append, List.append_assoc] at hlist
    exact String.ext (List.append_cancel_right (List.append_cancel_left hlist))

/-- The literal of a value is decided by the two words, by the grammar of numerals and by the exact
number that a numeral denotes. It is written as the value itself or as the value between quotes, so
different values have different literals. -/
theorem encode_decides (v : String) :
    (∀ b, Literal.encode v = .bool b ↔ v = if b then "true" else "false") ∧
    (∀ text, Literal.encode v = .number text ↔
      text = v ∧ ∃ x, Denotes v.toList x ∧ |x| < 2 ^ 1024 - 2 ^ 970) ∧
    (∀ text, Literal.encode v = .text text ↔ text = v ∧ v ≠ "true" ∧ v ≠ "false" ∧
      ¬ ∃ x, Denotes v.toList x ∧ |x| < 2 ^ 1024 - 2 ^ 970) ∧
    (∀ x y, Denotes v.toList x → Denotes v.toList y → x = y) ∧
    (Literal.encode v).render = (if (Literal.encode v).isBare then v else "'" ++ v ++ "'") ∧
    ∀ w, (Literal.encode v).render = (Literal.encode w).render → v = w := by
  refine ⟨?_, ?_, ?_, fun x y hx hy => hx.unique hy, render_encode v,
    fun w => render_encode_injective⟩
  · intro b
    rcases encode_cases v with ⟨b', rfl, hencode, -⟩ | ⟨hnumber, hencode⟩ |
      ⟨htrue, hfalse, -, hencode⟩
    · rw [hencode]
      cases b <;> cases b' <;> decide
    · rw [hencode]
      cases b with
      | false => simpa using hnumber.ne_word.2
      | true => simpa using hnumber.ne_word.1
    · rw [hencode]
      cases b with
      | false => simpa using hfalse
      | true => simpa using htrue
  · intro text
    change _ ↔ text = v ∧ IsNumber v
    rcases encode_cases v with ⟨b, -, hencode, hnumber⟩ | ⟨hnumber, hencode⟩ |
      ⟨-, -, hnumber, hencode⟩
    · simp [hencode, hnumber]
    · simp [hencode, hnumber, eq_comm]
    · simp [hencode, hnumber]
  · intro text
    change _ ↔ text = v ∧ v ≠ "true" ∧ v ≠ "false" ∧ ¬ IsNumber v
    rcases encode_cases v with ⟨b, hv, hencode, -⟩ | ⟨hnumber, hencode⟩ |
      ⟨htrue, hfalse, hnumber, hencode⟩
    · rw [hencode]
      cases b with
      | false => simp [hv]
      | true => simp [hv]
    · simp [hencode, hnumber]
    · simp [hencode, htrue, hfalse, hnumber, eq_comm]

/-! ## Scalars of a row -/

theorem abs_signFactor_mul (negative : Bool) (x : ℚ) : |(signFactor negative : ℚ) * x| = |x| := by
  cases negative with
  | false => simp [signFactor]
  | true => simp [signFactor]

theorem isNumber_render (n : JsonNumber) : IsNumber n.render := by
  cases n with
  | integer value inRange =>
    refine ⟨value, denotes_toString value, ?_⟩
    have hrange : |value| ≤ 2 ^ 64 := by
      rw [abs_le]
      omega
    have hcast : |(value : ℚ)| ≤ 2 ^ 64 := by exact_mod_cast hrange
    have hbound : (2 : ℚ) ^ 10 ≤ 2 ^ 969 := pow_le_pow_right₀ (by norm_num) (by norm_num)
    rw [Binary64.two_pow_bound]
    calc |(value : ℚ)| ≤ 2 ^ 64 := hcast
      _ < (2 ^ 55 - 2) * 2 ^ 10 := by norm_num
      _ ≤ (2 ^ 55 - 2) * 2 ^ 969 := mul_le_mul_of_nonneg_left hbound (by norm_num)
  | float x =>
    obtain ⟨hnonneg, hlt⟩ := writtenMagnitude_bounds x
    refine ⟨signFactor x.negative * writtenMagnitude x, ?_, ?_⟩
    · rw [JsonNumber.render, String.toList_ofList]
      exact denotes_renderFloat x
    · rwa [abs_signFactor_mul, abs_of_nonneg hnonneg]

theorem encode_text_of_mark {v : String} {c : Char} (hmem : c ∈ v.toList) (hc : ¬ IsBareChar c) :
    Literal.encode v = .text v := by
  have hbare : ¬ ∀ d ∈ v.toList, IsBareChar d := fun h => hc (h c hmem)
  apply encode_text
  · rintro rfl
    exact hbare (by simp [IsBareChar])
  · rintro rfl
    exact hbare (by simp [IsBareChar])
  · intro hnumber
    obtain ⟨n, hn⟩ := hnumber.exists_numeral
    exact hbare (bareChars_of_ofChars? hn)

theorem encode_null : Literal.encode "null" = .text "null" := by
  apply encode_text
  · decide
  · decide
  · intro hnumber
    obtain ⟨n, hn⟩ := hnumber.exists_numeral
    cases hn

/-- What the literal of a JSON value has to be for the value to keep its kind. -/
def KeepsKind (v : Json) : Prop :=
  (∀ text, Literal.encode v.toText = .number text ↔ text = v.toText ∧ ∃ n, v = .number n) ∧
  (∀ b, Literal.encode v.toText = .bool b ↔ v = .bool b) ∧
  ∀ text, Literal.encode v.toText = .text text ↔
    text = v.toText ∧ (∀ n, v ≠ .number n) ∧ ∀ b, v ≠ .bool b

theorem keepsKind_of_text {v : Json} (hencode : Literal.encode v.toText = .text v.toText)
    (hnumber : ∀ n, v ≠ .number n) (hbool : ∀ b, v ≠ .bool b) : KeepsKind v := by
  refine ⟨?_, ?_, ?_⟩
  · intro text
    rw [hencode]
    simp [hnumber]
  · intro b
    rw [hencode]
    simp [hbool]
  · intro text
    rw [hencode, Literal.text.injEq]
    constructor
    · intro h
      exact ⟨h.symm, hnumber, hbool⟩
    · rintro ⟨rfl, -⟩
      rfl

theorem keepsKind {v : Json} (h : ∀ s, v ≠ .string s) : KeepsKind v := by
  cases v with
  | null => exact keepsKind_of_text encode_null (by simp) (by simp)
  | bool b =>
    have hencode : Literal.encode (Json.bool b).toText = .bool b := by cases b <;> rfl
    simp [KeepsKind, hencode]
  | number n =>
    have hencode : Literal.encode (Json.number n).toText = .number (Json.number n).toText :=
      encode_number (isNumber_render n)
    refine ⟨?_, by simp [hencode], by simp [hencode]⟩
    intro text
    rw [hencode, Literal.number.injEq]
    constructor
    · intro htext
      exact ⟨htext.symm, n, rfl⟩
    · rintro ⟨rfl, -⟩
      rfl
  | string s => exact absurd rfl (h s)
  | array items =>
    have hmark : '[' ∈ (Json.array items).toText.toList := by simp [Json.toText, Json.render]
    exact keepsKind_of_text (encode_text_of_mark hmark (by decide)) (by simp) (by simp)
  | object members =>
    have hmark : '\x7b' ∈ (Json.object members).toText.toList := by simp [Json.toText, Json.render]
    exact keepsKind_of_text (encode_text_of_mark hmark (by decide)) (by simp) (by simp)

theorem denotes_integer_iff {i : ℤ} {inRange} (x : ℚ) :
    Denotes (Json.number (.integer i inRange)).toText.toList x ↔ x = i := by
  constructor
  · intro hx
    exact hx.unique (denotes_toString i)
  · rintro rfl
    exact denotes_toString i

/-- The number that a double is written as rounds to the double. -/
theorem denotes_float {x : Binary64} (hzero : x.isZero = false) :
    ∃ q, x.Covers q ∧
      Denotes (Json.number (.float x)).toText.toList (signFactor x.negative * q) := by
  refine ⟨x.shortest.value, Binary64.covers_shortest hzero, ?_⟩
  have hdenotes := denotes_renderFloat x
  rw [writtenMagnitude, hzero, if_neg Bool.false_ne_true] at hdenotes
  change Denotes (String.ofList (renderFloat x)).toList _
  rwa [String.toList_ofList]

/-- A number of a row becomes a number, a boolean that boolean, and what is neither becomes a text.
The literal of a whole number denotes it, that of a double a number that rounds to it. -/
theorem scalar_keeps_kind (v : Json) (h : ∀ s, v ≠ .string s) :
    (∀ text, Literal.encode v.toText = .number text ↔ text = v.toText ∧ ∃ n, v = .number n) ∧
    (∀ b, Literal.encode v.toText = .bool b ↔ v = .bool b) ∧
    (∀ text, Literal.encode v.toText = .text text ↔
      text = v.toText ∧ (∀ n, v ≠ .number n) ∧ ∀ b, v ≠ .bool b) ∧
    (∀ i inRange, v = .number (.integer i inRange) → ∀ x, Denotes v.toText.toList x ↔ x = i) ∧
    (∀ x, v = .number (.float x) → x.isZero = false →
      ∃ q, x.Covers q ∧ Denotes v.toText.toList (signFactor x.negative * q)) := by
  suffices hkind : KeepsKind v ∧
      (∀ i inRange, v = .number (.integer i inRange) → ∀ x, Denotes v.toText.toList x ↔ x = i) ∧
      ∀ x, v = .number (.float x) → x.isZero = false →
        ∃ q, x.Covers q ∧ Denotes v.toText.toList (signFactor x.negative * q) by
    obtain ⟨⟨hnumber, hbool, htext⟩, hinteger, hfloat⟩ := hkind
    exact ⟨hnumber, hbool, htext, hinteger, hfloat⟩
  refine ⟨keepsKind h, ?_, ?_⟩
  · rintro i inRange rfl x
    exact denotes_integer_iff x
  · rintro x rfl hzero
    exact denotes_float hzero

def leastDouble : Binary64 where
  negative := false
  mantissa := 1
  exponent := -1074
  mantissa_lt := by decide
  exponent_ge := (Binary64.zero false).exponent_ge
  exponent_le := (Binary64.zero false).exponent_le
  normal := .inr rfl

theorem scalar_keeps_kind_least :
    (∀ s, Json.number (.float leastDouble) ≠ .string s) ∧
    (Json.number (.float leastDouble)).toText = "5e-324" ∧
    Literal.encode "5e-324" = .number "5e-324" := by
  have hstring : ∀ s, Json.number (.float leastDouble) ≠ .string s := by
    intro s h
    cases h
  have htext : (Json.number (.float leastDouble)).toText = "5e-324" := by decide +kernel
  obtain ⟨hnumber, -⟩ := scalar_keeps_kind (.number (.float leastDouble)) hstring
  refine ⟨hstring, htext, ?_⟩
  rw [htext] at hnumber
  exact (hnumber "5e-324").mpr ⟨rfl, _, rfl⟩

end SchemaWalk.Cypher
