import SchemaWalk.Cypher.Literal

/-! # Where a literal ends

A bare literal is made of letters, digits, signs and points, so it ends at the first comma or
brace. A quoted one ends at its second quote, provided that its value has none. Either way the
literal can be told from what stands behind it, and the value from the literal. -/

namespace SchemaWalk

/-- Two texts up to a mark that neither has: they end at the same place. -/
theorem cut_at_mark {c c' : Char} {xs ys rest rest' : List Char} (hx : c' ∉ xs) (hy : c ∉ ys)
    (h : xs ++ c :: rest = ys ++ c' :: rest') : xs = ys ∧ c = c' ∧ rest = rest' := by
  rcases List.append_eq_append_iff.mp h with ⟨mid, rfl, hrest⟩ | ⟨mid, rfl, hrest⟩
  · cases mid with
    | nil =>
      obtain ⟨rfl, rfl⟩ := List.cons.inj hrest
      exact ⟨(List.append_nil xs).symm, rfl, rfl⟩
    | cons d mid =>
      obtain ⟨rfl, -⟩ := List.cons.inj hrest
      exact absurd (List.mem_append_right xs List.mem_cons_self) hy
  · cases mid with
    | nil =>
      obtain ⟨rfl, rfl⟩ := List.cons.inj hrest
      exact ⟨List.append_nil ys, rfl, rfl⟩
    | cons d mid =>
      obtain ⟨rfl, -⟩ := List.cons.inj hrest
      exact absurd (List.mem_append_right ys List.mem_cons_self) hx

namespace Decimal

/-- Of such characters numerals, and the words for booleans, are made. -/
def IsBareChar (c : Char) : Prop := c.isAlphanum = true ∨ c = '+' ∨ c = '-' ∨ c = '.'

instance (c : Char) : Decidable (IsBareChar c) := inferInstanceAs (Decidable (_ ∨ _))

theorem bareChar_of_isDigit {c : Char} (h : c.isDigit = true) : IsBareChar c :=
  .inl (by simp [Char.isAlphanum, h])

theorem bareChars_of_dropWhile {cs : List Char}
    (h : ∀ c ∈ cs.dropWhile Char.isDigit, IsBareChar c) : ∀ c ∈ cs, IsBareChar c := by
  intro c hc
  rw [← List.takeWhile_append_dropWhile (p := Char.isDigit) (l := cs)] at hc
  rcases List.mem_append.mp hc with hc | hc
  · exact bareChar_of_isDigit (List.all_eq_true.mp List.all_takeWhile c hc)
  · exact h c hc

theorem bareChars_of_splitSign {cs : List Char} (h : ∀ c ∈ (splitSign cs).2, IsBareChar c) :
    ∀ c ∈ cs, IsBareChar c := by
  unfold splitSign at h
  split at h
  · exact List.forall_mem_cons.mpr ⟨by decide, h⟩
  · exact List.forall_mem_cons.mpr ⟨by decide, h⟩
  · exact h

theorem bareChars_of_splitFraction {cs : List Char}
    (h : ∀ c ∈ (splitFraction cs).2, IsBareChar c) : ∀ c ∈ cs, IsBareChar c := by
  unfold splitFraction at h
  split at h
  · exact List.forall_mem_cons.mpr ⟨by decide, bareChars_of_dropWhile h⟩
  · exact h

theorem bareChars_of_readExponent {cs : List Char} {power : Int}
    (h : readExponent cs = some power) : ∀ c ∈ cs, IsBareChar c := by
  cases cs with
  | nil => simp
  | cons e rest =>
    rw [readExponent] at h
    split at h
    · next he =>
      have hdigits : ∀ c ∈ (splitSign rest).2, c.isDigit = true := by
        have hsome := (Option.ite_none_left_eq_some.mp h).1
        simp only [Bool.or_eq_true, not_or, Bool.not_eq_true, Bool.not_eq_false',
          List.all_eq_true] at hsome
        exact hsome.2
      have hrest := bareChars_of_splitSign fun c hc => bareChar_of_isDigit (hdigits c hc)
      refine List.forall_mem_cons.mpr ⟨?_, hrest⟩
      rcases he with rfl | rfl <;> decide
    · cases h

theorem bareChars_of_ofChars? {cs : List Char} {n : Numeral}
    (h : Numeral.ofChars? cs = some n) : ∀ c ∈ cs, IsBareChar c := by
  unfold Numeral.ofChars? at h
  obtain ⟨power, hpower, -⟩ := Option.map_eq_some_iff.mp (Option.ite_none_left_eq_some.mp h).2
  have htail := bareChars_of_readExponent hpower
  exact bareChars_of_splitSign (bareChars_of_dropWhile (bareChars_of_splitFraction htail))

end Decimal

namespace Cypher

open Decimal

/-- A literal is its value as it stands, without any mark in it, or its value in quotes. -/
theorem render_encode_cases (v : String) :
    ((Literal.encode v).render = v ∧ ∀ c ∈ v.toList, IsBareChar c) ∨
      (Literal.encode v).render = "'" ++ v ++ "'" := by
  have htrue : ∀ c ∈ "true".toList, IsBareChar c := by simp [IsBareChar]
  have hfalse : ∀ c ∈ "false".toList, IsBareChar c := by simp [IsBareChar]
  unfold Literal.encode
  split
  · next h => exact .inl ⟨h.symm, h ▸ htrue⟩
  split
  · next h => exact .inl ⟨h.symm, h ▸ hfalse⟩
  split
  · next h =>
    refine .inl ⟨rfl, ?_⟩
    unfold isFiniteNumeral at h
    cases hn : Numeral.ofChars? v.toList with
    | none => simp [hn] at h
    | some n => exact bareChars_of_ofChars? hn
  · exact .inr rfl

/-- What may stand behind a literal. -/
def EndsLiteral (c : Char) : Prop := c = ',' ∨ c = '\x7d'

theorem not_mem_bare {cs : List Char} (h : ∀ c ∈ cs, IsBareChar c) {c : Char}
    (hc : ¬ IsBareChar c) : c ∉ cs := fun hmem => hc (h c hmem)

theorem EndsLiteral.not_bare {c : Char} (h : EndsLiteral c) : ¬ IsBareChar c := by
  rcases h with rfl | rfl <;> decide

/-- A quoted literal opens with a quote, and neither a bare one nor what ends it does. -/
theorem bare_ne_quoted {xs : List Char} (hx : ∀ c ∈ xs, IsBareChar c) {c : Char}
    (hc : EndsLiteral c) (rest cs : List Char) : xs ++ c :: rest ≠ '\'' :: cs := by
  intro h
  have hquote : '\'' ∉ xs := not_mem_bare hx (by decide)
  obtain ⟨-, rfl, -⟩ := cut_at_mark hquote List.not_mem_nil h
  rcases hc with hc | hc <;> exact absurd hc (by decide)

theorem literal_append_inj {v v' : String} (hv : '\'' ∉ v.toList) (hv' : '\'' ∉ v'.toList)
    {c c' : Char} (hc : EndsLiteral c) (hc' : EndsLiteral c') {rest rest' : List Char}
    (h : (Literal.encode v).render.toList ++ c :: rest =
      (Literal.encode v').render.toList ++ c' :: rest') :
    v = v' ∧ c = c' ∧ rest = rest' := by
  rcases render_encode_cases v with ⟨hr, hb⟩ | hr <;>
    rcases render_encode_cases v' with ⟨hr', hb'⟩ | hr' <;> rw [hr, hr'] at h
  · obtain ⟨hvalue, hrest⟩ :=
      cut_at_mark (not_mem_bare hb hc'.not_bare) (not_mem_bare hb' hc.not_bare) h
    exact ⟨String.ext hvalue, hrest⟩
  · exact absurd (by simpa using h) (bare_ne_quoted hb hc rest _)
  · exact absurd (by simpa using h.symm) (bare_ne_quoted hb' hc' rest' _)
  · have hquoted : v.toList ++ '\'' :: c :: rest = v'.toList ++ '\'' :: c' :: rest' := by
      simpa using h
    obtain ⟨hvalue, -, hrest⟩ := cut_at_mark hv hv' hquoted
    exact ⟨String.ext hvalue, List.cons.inj hrest⟩

end Cypher

end SchemaWalk
