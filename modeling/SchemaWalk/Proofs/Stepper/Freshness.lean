import SchemaWalk.Proofs.Stepper.Action

/-! # No stale answers

Whatever the user does and whatever the executor replies, each tracker of a stepper belongs to
the query that the current walk and candidate call for, or is idle where there is none. -/

namespace SchemaWalk

variable {α σ ε : Type}

/-- The request for a query has run its course, with a result or an error and not both. -/
structure Answered (q : Query) (s : QueryState α) : Prop where
  text : s.queryText = q.text
  settled : s.loading = false
  one : s.result.isSome ≠ s.error.isSome

/-- What a state has to be when a query is called for, or none is. -/
def Current : Option Query → QueryState α → Prop
  | some q, s => Answered q s
  | none, s => s = .idle

structure Settled (s : QueryState α) : Prop where
  loading : s.loading = false
  one : s.queryText ≠ "" → s.result.isSome ≠ s.error.isSome

theorem Answered.to_settled {q : Query} {s : QueryState α} (h : Answered q s) : Settled s :=
  ⟨h.settled, fun _ => h.one⟩

theorem Current.settled {q : Option Query} {s : QueryState α} (h : Current q s) : Settled s := by
  cases q with
  | some q => exact Answered.to_settled h
  | none =>
    obtain rfl : s = .idle := h
    exact ⟨rfl, fun hne => absurd rfl hne⟩

/-- The text of a query that is called for, and no text where none is. -/
theorem Current.queryText_eq {q : Option Query} {s : QueryState α} (h : Current q s) :
    s.queryText = (q.map (·.text)).getD "" := by
  cases q with
  | some q => exact Answered.text h
  | none => exact congrArg QueryState.queryText h

theorem Current.exists_query {q : Option Query} {s : QueryState α} (h : Current q s)
    (hne : s.queryText ≠ "") : ∃ called, q = some called := by
  cases q with
  | some called => exact ⟨called, rfl⟩
  | none => exact absurd h.queryText_eq hne

section Trackers

variable [Executor ε]

theorem answered_run (t : Tracker α) (e : ε) (q : Query) (decode : List Row → Except WalkError α) :
    Answered q (t.run e q decode).tracker.state := by
  unfold Tracker.run
  simp only [Tracker.finish_start]
  cases (execute e q).1.bind decode with
  | ok value => exact ⟨rfl, rfl, by simp [QueryState.settle]⟩
  | error err => exact ⟨rfl, rfl, by simp [QueryState.settle]⟩

theorem current_runOrReset (t : Tracker α) (e : ε) (q : Option Query)
    (decode : List Row → Except WalkError α) :
    Current q (t.runOrReset e q decode).tracker.state := by
  cases q with
  | some q => exact answered_run t e q decode
  | none => rfl

end Trackers

namespace Stepper

/-- The trackers of the focal node belong to the walk and the candidate. -/
structure Focused (s : Stepper σ ε) : Prop where
  adjacency : Current s.adjacencyQuery s.adjacency.state
  propertyCounts : Current s.propertyCountsQuery s.propertyCounts.state
  valueCounts : ∀ property t, s.valueCounts.get? property = some t →
    Current (s.valueCountsQuery property) t.state

structure UpToDate (builder : QueryBuilder) (s : Stepper σ ε) : Prop where
  builder : s.builder = builder
  nextLabels : Answered s.nextLabelsQuery s.nextLabels.state
  focused : Focused s

/-! ## The parts of an action -/

theorem focused_resetCandidate (s : Stepper σ ε) : Focused s.resetCandidate where
  adjacency := rfl
  propertyCounts := rfl
  valueCounts := by
    intro property t h
    simp [resetCandidate] at h

section Asking

variable [Executor ε]

theorem focused_refreshFocal (s : Stepper σ ε) : Focused s.refreshFocal where
  adjacency := current_runOrReset _ _ _ _
  propertyCounts := current_runOrReset _ _ _ _
  valueCounts := by
    intro property t h
    simp at h

theorem focused_askValueCounts {s : Stepper σ ε} (h : Focused s) (property : String) :
    Focused (s.askValueCounts property) where
  adjacency := h.adjacency
  propertyCounts := h.propertyCounts
  valueCounts := by
    intro other t ht
    by_cases ho : other = property
    · subst ho
      simp only [askValueCounts, Table.get?_insert_self, Option.some.injEq] at ht
      subst ht
      exact current_runOrReset _ _ _ _
    · simp only [askValueCounts, Table.get?_insert_of_ne _ ho] at ht
      exact h.valueCounts other t ht

theorem focused_askNextLabels {s : Stepper σ ε} (h : Focused s) : Focused s.askNextLabels :=
  ⟨h.adjacency, h.propertyCounts, h.valueCounts⟩

theorem answered_askNextLabels (s : Stepper σ ε) :
    Answered s.askNextLabels.nextLabelsQuery s.askNextLabels.nextLabels.state :=
  answered_run _ _ _ _

theorem upToDate_refreshFocal {builder : QueryBuilder} {s : Stepper σ ε}
    (hb : s.builder = builder) (hl : Answered s.nextLabelsQuery s.nextLabels.state) :
    UpToDate builder s.refreshFocal :=
  ⟨hb, hl, focused_refreshFocal s⟩

/-- The labels that come in may select another candidate; then the focal node is asked about
again, and only then. -/
theorem upToDate_refreshNextLabels {builder : QueryBuilder} {s : Stepper σ ε}
    (hb : s.builder = builder) (hf : Focused s) : UpToDate builder s.refreshNextLabels := by
  have hkept : UpToDate builder s.askNextLabels :=
    ⟨hb, answered_askNextLabels s, focused_askNextLabels hf⟩
  unfold refreshNextLabels selectOnlyLabel
  split
  · split
    · exact hkept
    · exact upToDate_refreshFocal hb hkept.nextLabels
  · exact hkept

variable [KeyValueStore σ]

theorem upToDate_start (store : σ) (executor : ε) (builder : QueryBuilder) :
    UpToDate builder (start store executor builder) := by
  refine upToDate_refreshNextLabels rfl ⟨rfl, rfl, ?_⟩
  intro property t h
  simp at h

theorem upToDate_effect {builder : QueryBuilder} {s s' : Stepper σ ε} (h : UpToDate builder s)
    (he : Effect s s') : UpToDate builder s' := by
  cases he with
  | nothing => exact h
  | refocused _ => exact upToDate_refreshFocal h.builder h.nextLabels
  | valuesAsked property =>
    exact ⟨h.builder, h.nextLabels, focused_askValueCounts h.focused property⟩
  -- The trackers of the old candidate are idle before the labels are asked for.
  | continued _ => exact upToDate_refreshNextLabels h.builder (focused_resetCandidate _)
  | labelsAsked => exact upToDate_refreshNextLabels h.builder h.focused
  | overviewAsked _ =>
    exact ⟨h.builder, h.nextLabels, ⟨h.focused.adjacency, h.focused.propertyCounts,
      h.focused.valueCounts⟩⟩
  | reopened => exact h.builder ▸ upToDate_start _ _ _

end Asking

/-! ## Whole sessions -/

structure NeverStale (builder : QueryBuilder) (s : Stepper σ ε) : Prop where
  nextLabels : s.nextLabels.state.queryText = (builder.reachableLabels s.walk).text
  focal : s.candidate.label ≠ "" →
    (builder.adjacentRelationships s.walk s.candidate).map (·.text) =
        some s.adjacency.state.queryText ∧
      (builder.propertyKeys s.walk s.candidate).map (·.text) =
        some s.propertyCounts.state.queryText
  noFocal : s.candidate.label = "" → s.adjacency.state = .idle ∧ s.propertyCounts.state = .idle
  values : ∀ property state, s.valueCountState property = some state →
    match builder.propertyValues s.walk s.candidate property with
    | some q => state.queryText = q.text
    | none => state = .idle
  settled : Settled s.nextLabels.state ∧ Settled s.adjacency.state ∧
    Settled s.propertyCounts.state ∧
      ∀ property state, s.valueCountState property = some state → Settled state

theorem focal_isSome {c : Candidate} (w : Walk) (h : c.label ≠ "") :
    ∃ text, QueryBuilder.focal w c = some text := by
  simp [QueryBuilder.focal, Candidate.isReady, h]

theorem focal_eq_none {c : Candidate} (w : Walk) (h : c.label = "") :
    QueryBuilder.focal w c = none := by
  simp [QueryBuilder.focal, Candidate.isReady, h]

theorem neverStale_of_upToDate {builder : QueryBuilder} {s : Stepper σ ε}
    (h : UpToDate builder s) : NeverStale builder s := by
  obtain ⟨rfl, hl, ha, hp, hv⟩ := h
  have hvalues : ∀ property state, s.valueCountState property = some state →
      Current (s.valueCountsQuery property) state := by
    intro property state hs
    obtain ⟨t, ht, rfl⟩ := Option.map_eq_some_iff.mp hs
    exact hv property t ht
  constructor
  · exact hl.text
  · intro hne
    obtain ⟨text, htext⟩ := focal_isSome s.walk hne
    simp only [adjacencyQuery, propertyCountsQuery, QueryBuilder.adjacentRelationships,
      QueryBuilder.propertyKeys, htext, Option.map_some] at ha hp ⊢
    exact ⟨congrArg some ha.text.symm, congrArg some hp.text.symm⟩
  · intro he
    simp only [adjacencyQuery, propertyCountsQuery, QueryBuilder.adjacentRelationships,
      QueryBuilder.propertyKeys, focal_eq_none s.walk he, Option.map_none] at ha hp
    exact ⟨ha, hp⟩
  · intro property state hs
    have hc := hvalues property state hs
    unfold valueCountsQuery at hc
    split
    · next q hq => rw [hq] at hc; exact hc.text
    · next hq => rw [hq] at hc; exact hc
  · exact ⟨hl.to_settled, ha.settled, hp.settled,
      fun property state hs => (hvalues property state hs).settled⟩

theorem upToDate_follow [Executor ε] [KeyValueStore σ] (store : σ) (executor : ε)
    (builder : QueryBuilder) (actions : List Action) :
    UpToDate builder ((start store executor builder).follow actions) :=
  follow_induction (fun _ _ => upToDate_effect) (upToDate_start store executor builder) actions

theorem session_never_stale [Executor ε] [KeyValueStore σ] (store : σ) (executor : ε)
    (builder : QueryBuilder) (actions : List Action) :
    NeverStale builder ((start store executor builder).follow actions) :=
  neverStale_of_upToDate (follow_induction (fun _ _ => upToDate_effect)
    (upToDate_start store executor builder) actions)

end Stepper

end SchemaWalk
