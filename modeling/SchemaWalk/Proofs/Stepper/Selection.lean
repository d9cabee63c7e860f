import SchemaWalk.Proofs.Counts.Decoding
import SchemaWalk.Proofs.Stepper.Traffic

/-! # The label that needs no choosing

Whenever a walk is new, and whenever a session is told to, it asks which labels the walk reaches.
A label that is the only one is selected, without filters. Every other reply leaves the candidate
as it was, and a new walk has none. -/

namespace SchemaWalk

/-- Rows that count one label and no other, however often they repeat it. -/
def Reply.NamesOnly (label : String) : Reply → Prop
  | .rows found => found ≠ [] ∧
      ∀ row ∈ found, row.get? "label" = some (.string label) ∧ row.Counted
  | .failure _ | .silence => False

namespace Stepper

variable {σ ε : Type}

theorem soleLabel_eq_some_iff {reply : Reply} {q : Query} {label : String} :
    soleLabel (reply.outcome q) = some label ↔ reply.NamesOnly label := by
  cases reply with
  | rows found =>
    have hsole : soleLabel (.ok found) = some label ↔
        ∃ counts, decodeCounts "label" found = .ok counts ∧ counts.keys = [label] := by
      unfold soleLabel
      simp only [Except.bind]
      cases decodeCounts "label" found with
      | error e => simp
      | ok counts =>
        rcases hkeys : counts.keys with _ | ⟨first, _ | ⟨second, rest⟩⟩ <;> simp [hkeys]
    exact hsole.trans decodeCounts_keys_eq_singleton_iff
  | failure message => simp [soleLabel, Reply.outcome, Reply.NamesOnly, Except.bind]
  | silence => simp [soleLabel, Reply.outcome, Reply.NamesOnly, Except.bind]

theorem namesOnly_unique {reply : Reply} {label other : String} (h : reply.NamesOnly label)
    (h' : reply.NamesOnly other) : label = other := by
  cases reply with
  | rows found =>
    obtain ⟨row, hrow⟩ := List.exists_mem_of_ne_nil found h.1
    have hlabel := (h.2 row hrow).1
    rw [(h'.2 row hrow).1] at hlabel
    cases hlabel
    rfl
  | failure message => exact h.elim
  | silence => exact h.elim

section Asking

variable [Executor ε]

/-- What is replied when a session asks which labels a walk reaches. -/
def labelReply (b : QueryBuilder) (e : ε) (w : Walk) : Reply :=
  (Executor.ask e (b.reachableLabels w)).1

theorem onlyLabel_eq_some_iff {s : Stepper σ ε} {label : String} :
    s.askNextLabels.onlyLabel = some label ↔
      (labelReply s.builder s.executor s.walk).NamesOnly label := by
  rw [onlyLabel_askNextLabels]
  exact soleLabel_eq_some_iff

/-- All that asking for labels can do: the only label there is becomes the candidate, or nothing
changes but the tracker of the labels. -/
theorem refreshNextLabels_cases (s : Stepper σ ε) :
    (∃ label, (labelReply s.builder s.executor s.walk).NamesOnly label ∧
      label ≠ s.candidate.label ∧ s.refreshNextLabels = s.askNextLabels.setLabel label) ∨
    ((∀ label, (labelReply s.builder s.executor s.walk).NamesOnly label →
      label = s.candidate.label) ∧ s.refreshNextLabels = s.askNextLabels) := by
  simp only [← onlyLabel_eq_some_iff, refreshNextLabels]
  cases honly : s.askNextLabels.onlyLabel with
  | none =>
    right
    refine ⟨?_, selectOnlyLabel_of_none honly⟩
    intro label h
    cases h
  | some label =>
    by_cases hsame : label = s.candidate.label
    · right
      refine ⟨?_, selectOnlyLabel_of_selected honly hsame⟩
      intro other h
      cases h
      exact hsame
    · left
      exact ⟨label, rfl, hsame, selectOnlyLabel_of_some honly hsame⟩

/-! ## New walks -/

/-- The candidate that a reply gives to a session without one. -/
structure OpensWith (reply : Reply) (c : Candidate) : Prop where
  only : ∀ label, reply.NamesOnly label → c = ⟨label, []⟩
  otherwise : (∀ label, ¬ reply.NamesOnly label) → c = ⟨"", []⟩

theorem opensWith_refreshNextLabels {s : Stepper σ ε} (h : s.candidate = .empty) :
    OpensWith (labelReply s.builder s.executor s.walk) s.refreshNextLabels.candidate := by
  rcases refreshNextLabels_cases s with ⟨label, hlabel, -, hs⟩ | ⟨hsame, hs⟩
  · have hcandidate : s.refreshNextLabels.candidate = ⟨label, []⟩ := by
      rw [hs]
      rfl
    constructor
    · intro other hother
      rw [hcandidate, namesOnly_unique hlabel hother]
    · intro hnone
      exact absurd hlabel (hnone label)
  · have hcandidate : s.refreshNextLabels.candidate = ⟨"", []⟩ := by
      rw [hs, candidate_askNextLabels, h]
      rfl
    constructor
    · intro label hlabel
      -- the one label may be the empty one, which is selected already
      have hempty : label = "" := by
        rw [hsame label hlabel, h]
        rfl
      rw [hcandidate, hempty]
    · intro _
      exact hcandidate

theorem opensWith_continueFrom (s : Stepper σ ε) (saved : SavedWalk σ) :
    OpensWith (labelReply s.builder s.executor saved.walk) (s.continueFrom saved).candidate :=
  opensWith_refreshNextLabels (s := resetCandidate { s with saved }) rfl

variable [KeyValueStore σ]

theorem opensWith_start (store : σ) (executor : ε) (b : QueryBuilder) :
    OpensWith (labelReply b executor (SavedWalk.load store).walk)
      (start store executor b).candidate :=
  opensWith_refreshNextLabels
    (s := ⟨.load store, executor, b, .empty, .fresh, .fresh, .fresh, ∅⟩) rfl

/-! ## Whole sessions -/

/-- What the reply about the labels makes of the candidate. -/
structure SelectsExactly (b : QueryBuilder) (s : Stepper σ ε) : Prop where
  committed : ∀ action s', s.Commits action → s.perform action = .ok s' →
    OpensWith (labelReply b s.executor s'.walk) s'.candidate
  switched : ∀ label, (labelReply b s.executor s.walk).NamesOnly label →
    label ≠ s.candidate.label → s.refreshNextLabels.candidate = ⟨label, []⟩
  kept : (∀ label, (labelReply b s.executor s.walk).NamesOnly label →
      label = s.candidate.label) →
    s.refreshNextLabels.candidate = s.candidate ∧
      s.refreshNextLabels.adjacency = s.adjacency ∧
      s.refreshNextLabels.propertyCounts = s.propertyCounts ∧
      s.refreshNextLabels.valueCounts = s.valueCounts

theorem selectsExactly_of_builder {b : QueryBuilder} {s : Stepper σ ε} (h : s.builder = b) :
    SelectsExactly b s := by
  subst h
  constructor
  · intro action s' hc hok
    obtain ⟨saved, -, rfl⟩ := continued_of_commits hc hok
    rw [walk, saved_continueFrom]
    exact opensWith_continueFrom s saved
  · intro label hlabel hne
    rcases refreshNextLabels_cases s with ⟨other, hother, -, hs⟩ | ⟨hsame, -⟩
    · rw [hs, namesOnly_unique hlabel hother]
      rfl
    · exact absurd (hsame label hlabel) hne
  · intro hsame
    rcases refreshNextLabels_cases s with ⟨label, hlabel, hne, -⟩ | ⟨-, hs⟩
    · exact absurd (hsame label hlabel) hne
    · rw [hs]
      exact ⟨rfl, rfl, rfl, rfl⟩

/-- A session selects a label only when it is the only one, when it opens and ever after. -/
theorem labels_select_exactly (store : σ) (executor : ε) (b : QueryBuilder) :
    OpensWith (labelReply b executor (SavedWalk.load store).walk)
        (start store executor b).candidate ∧
      ∀ actions, SelectsExactly b ((start store executor b).follow actions) := by
  constructor
  · exact opensWith_start store executor b
  · intro actions
    exact selectsExactly_of_builder (upToDate_follow store executor b actions).builder

end Asking

end Stepper

end SchemaWalk
