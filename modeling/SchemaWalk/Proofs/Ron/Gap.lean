import SchemaWalk.Ron.Attributes
import SchemaWalk.Text.Characters

/-! # Gaps of blanks

Between two tokens of a snapshot stand spaces, tabs and line breaks, or nothing. What follows a
value is such a gap and then a comma, a closing bracket or the end. -/

namespace SchemaWalk.Ron

open Text

def Gap (g : List Char) : Prop := ∀ c ∈ g, c = ' ' ∨ c = '\t' ∨ c = '\n'

instance (g : List Char) : Decidable (Gap g) :=
  List.decidableBAll (fun c => c = ' ' ∨ c = '\t' ∨ c = '\n') g

/-- A character that is neither part of a gap nor opens a comment. -/
def Solid (c : Char) : Prop := c ≠ '/' ∧ isBlank c = false

instance (c : Char) : Decidable (Solid c) := inferInstanceAs (Decidable (_ ∧ _))

def EndsMember (c : Char) : Prop := c = ',' ∨ c = ')' ∨ c = ']'

/-- What may stand behind a value. -/
inductive Stops : List Char → Prop where
  | finish {g} : Gap g → Stops g
  | mark {g c} (cs : List Char) : Gap g → EndsMember c → Stops (g ++ c :: cs)

theorem gap_nil : Gap [] := by
  intro c h
  cases h

theorem gap_cons {c : Char} {g : List Char} (hc : c = ' ' ∨ c = '\t' ∨ c = '\n') (hg : Gap g) :
    Gap (c :: g) := by
  intro d hd
  rcases List.mem_cons.mp hd with rfl | hd
  · exact hc
  · exact hg d hd

theorem skipGap_cons_blank {c : Char} (h : c = ' ' ∨ c = '\t' ∨ c = '\n') (cs : List Char) :
    skipGap (c :: cs) = skipGap cs := by
  unfold skipGap
  rcases h with rfl | rfl | rfl
  · rw [skipGapFrom.eq_def]
    simp [isBlank]
  · rw [skipGapFrom.eq_def]
    simp [isBlank]
  · rw [skipGapFrom.eq_def]
    simp [isBlank]

theorem skipGap_append {g : List Char} (h : Gap g) (cs : List Char) :
    skipGap (g ++ cs) = skipGap cs := by
  induction g with
  | nil => rfl
  | cons c g ih =>
    rw [List.cons_append, skipGap_cons_blank (h c List.mem_cons_self)]
    exact ih fun d hd => h d (List.mem_cons_of_mem c hd)

theorem skipGap_nil : skipGap [] = some [] := by
  simp [skipGap, skipGapFrom]

theorem skipGap_gap {g : List Char} (h : Gap g) : skipGap g = some [] := by
  simpa [skipGap_nil] using skipGap_append h []

theorem skipGap_solid {c : Char} (h : Solid c) (cs : List Char) :
    skipGap (c :: cs) = some (c :: cs) := by
  obtain ⟨hslash, hblank⟩ := h
  unfold skipGap
  rw [skipGapFrom.eq_def]
  split <;> simp_all

theorem solid_of_endsMember {c : Char} (h : EndsMember c) : Solid c := by
  rcases h with rfl | rfl | rfl <;> decide

theorem skipGap_mark {g : List Char} {c : Char} (hg : Gap g) (hc : Solid c) (cs : List Char) :
    skipGap (g ++ c :: cs) = some (c :: cs) := by
  rw [skipGap_append hg, skipGap_solid hc]

theorem skipGap_stops {rest : List Char} (h : Stops rest) :
    skipGap rest = some [] ∨ ∃ c cs, EndsMember c ∧ skipGap rest = some (c :: cs) := by
  cases h with
  | finish h => exact .inl (skipGap_gap h)
  | @mark g c cs h hc => exact .inr ⟨c, cs, hc, skipGap_mark h (solid_of_endsMember hc) cs⟩

/-- A name does not go on behind its end. -/
def EndsName (rest : List Char) : Prop := ∀ c cs, rest = c :: cs → isIdentifierContinue c = false

theorem endsName_gap {g : List Char} {c : Char} (hg : Gap g) (hc : isIdentifierContinue c = false)
    (cs : List Char) : EndsName (g ++ c :: cs) := by
  intro d ds h
  cases g with
  | nil =>
    obtain ⟨rfl, -⟩ := List.cons.inj h
    exact hc
  | cons b g =>
    obtain ⟨rfl, -⟩ := List.cons.inj h
    rcases hg b List.mem_cons_self with rfl | rfl | rfl <;> decide

theorem Stops.endsName {rest : List Char} (h : Stops rest) : EndsName rest := by
  cases h with
  | finish h =>
    intro c cs heq
    subst heq
    rcases h c List.mem_cons_self with rfl | rfl | rfl <;> decide
  | mark cs h hc =>
    refine endsName_gap h ?_ cs
    rcases hc with rfl | rfl | rfl <;> decide

end SchemaWalk.Ron
