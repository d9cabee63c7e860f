/-! # Readers

A reader takes what it can from the front of a text and hands back the rest. -/

namespace SchemaWalk

theorem takeWhile_append_ends {p : Char → Bool} {cs rest : List Char} (h : ∀ c ∈ cs, p c = true)
    (hr : ∀ c ds, rest = c :: ds → p c = false) :
    (cs ++ rest).takeWhile p = cs ∧ (cs ++ rest).dropWhile p = rest := by
  rw [List.takeWhile_append_of_pos h, List.dropWhile_append_of_pos h]
  cases rest with
  | nil => simp
  | cons c ds => simp [hr c ds rfl]

theorem toList_pushn (s : String) (c : Char) (n : Nat) :
    (s.pushn c n).toList = s.toList ++ List.replicate n c := by
  induction n with
  | zero => exact (List.append_nil _).symm
  | succ n ih =>
    have hpush : s.pushn c (n + 1) = (s.pushn c n).push c := rfl
    rw [hpush, String.toList_push, ih, List.replicate_succ', List.append_assoc]

abbrev Reader (α : Type) := List Char → Option (α × List Char)

namespace Reader

def literal : List Char → Reader Unit
  | [], cs => some ((), cs)
  | c :: wanted, d :: cs => if c = d then literal wanted cs else none
  | _ :: _, [] => none

def whole {α : Type} (r : Reader α) (cs : List Char) : Option α :=
  match r cs with
  | some (x, []) => some x
  | _ => none

theorem eq_append_of_literal {wanted cs rest : List Char}
    (h : literal wanted cs = some ((), rest)) : cs = wanted ++ rest := by
  induction wanted generalizing cs with
  | nil => simpa [literal] using h
  | cons c wanted ih =>
    cases cs with
    | nil => simp [literal] at h
    | cons d cs =>
      rw [literal] at h
      split at h
      · next hcd => subst hcd; rw [ih h]; rfl
      · cases h

end Reader

def hexValue (c : Char) : Option Nat :=
  if '0' ≤ c ∧ c ≤ '9' then some (c.toNat - '0'.toNat)
  else if 'a' ≤ c ∧ c ≤ 'f' then some (c.toNat - 'a'.toNat + 10)
  else if 'A' ≤ c ∧ c ≤ 'F' then some (c.toNat - 'A'.toNat + 10)
  else none

end SchemaWalk
