import SchemaWalk.Executor.Script
import SchemaWalk.Proofs.Stepper.Freshness
import SchemaWalk.Proofs.Stepper.History
import SchemaWalk.Proofs.Stepper.Operation

/-! # What is only looked at

Adjacency, property names and property values are asked for to be shown. Two sessions whose
executors agree on the labels that a walk reaches take the same course, however much the rest of
their answers differ: in their walks, candidates and stores, and in every query that they send. -/

namespace SchemaWalk.Stepper

variable {α σ ε ε' : Type}

section Texts

variable [Executor ε]

/-- A tracker shows the text of its query, whatever comes back. -/
theorem queryText_runOrReset (t : Tracker α) (e : ε) (q : Option Query)
    (decode : List Row → Except WalkError α) :
    (t.runOrReset e q decode).tracker.state.queryText = (q.map (·.text)).getD "" :=
  (current_runOrReset t e q decode).queryText_eq

end Texts

/-- The texts of the value queries sent, by property. -/
def valueTexts (s : Stepper σ ε) : Table String String := s.valueCounts.map (·.state.queryText)

/-- Two sessions on one course. What their display trackers show need not be the same, only what
these were asked. -/
structure Together [Executor ε] [Executor ε'] (first : ε) (first' : ε')
    (s : Stepper σ (Recorded ε)) (t : Stepper σ (Recorded ε')) : Prop where
  builder : s.builder = t.builder
  labels : ∀ w, AgreeOn (s.builder.reachableLabels w) first first'
  executors : Paired first first' s.executor t.executor
  saved : s.saved = t.saved
  candidate : s.candidate = t.candidate
  nextLabels : s.nextLabels.state = t.nextLabels.state
  adjacency : s.adjacency.state.queryText = t.adjacency.state.queryText
  propertyCounts : s.propertyCounts.state.queryText = t.propertyCounts.state.queryText
  valueCounts : s.valueTexts = t.valueTexts

section Session

variable [Executor ε] [Executor ε'] {first : ε} {first' : ε'}
  {s : Stepper σ (Recorded ε)} {t : Stepper σ (Recorded ε')}

theorem paired_runOrReset {α β : Type} {e : Recorded ε} {e' : Recorded ε'}
    (h : Paired first first' e e') (t : Tracker α) (t' : Tracker β) (q : Option Query)
    (decode : List Row → Except WalkError α) (decode' : List Row → Except WalkError β) :
    Paired first first' (t.runOrReset e q decode).executor
      (t'.runOrReset e' q decode').executor := by
  cases q with
  | some q => exact h.executed q
  | none => exact h

theorem Together.walk (h : Together first first' s t) : s.walk = t.walk :=
  congrArg SavedWalk.walk h.saved

theorem together_refreshFocal (h : Together first first' s t) :
    Together first first' s.refreshFocal t.refreshFocal := by
  have hadjacency : s.adjacencyQuery = t.adjacencyQuery := by
    rw [adjacencyQuery, adjacencyQuery, h.builder, h.walk, h.candidate]
  have hkeys : s.propertyCountsQuery = t.propertyCountsQuery := by
    rw [propertyCountsQuery, propertyCountsQuery, h.builder, h.walk, h.candidate]
  have hpaired : Paired first first'
      (s.adjacency.runOrReset s.executor s.adjacencyQuery decodeAdjacency).executor
      (t.adjacency.runOrReset t.executor t.adjacencyQuery decodeAdjacency).executor := by
    rw [hadjacency]
    exact paired_runOrReset h.executors _ _ _ _ _
  constructor
  · exact h.builder
  · exact h.labels
  · change Paired first first' (s.propertyCounts.runOrReset _ s.propertyCountsQuery _).executor
      (t.propertyCounts.runOrReset _ t.propertyCountsQuery _).executor
    rw [hkeys]
    exact paired_runOrReset hpaired _ _ _ _ _
  · exact h.saved
  · exact h.candidate
  · exact h.nextLabels
  · change (s.adjacency.runOrReset _ s.adjacencyQuery _).tracker.state.queryText =
      (t.adjacency.runOrReset _ t.adjacencyQuery _).tracker.state.queryText
    rw [queryText_runOrReset, queryText_runOrReset, hadjacency]
  · change (s.propertyCounts.runOrReset _ s.propertyCountsQuery _).tracker.state.queryText =
      (t.propertyCounts.runOrReset _ t.propertyCountsQuery _).tracker.state.queryText
    rw [queryText_runOrReset, queryText_runOrReset, hkeys]
  · rfl

theorem together_withCandidate (h : Together first first' s t) (c : Candidate) :
    Together first first' { s with candidate := c } { t with candidate := c } :=
  ⟨h.builder, h.labels, h.executors, h.saved, rfl, h.nextLabels, h.adjacency, h.propertyCounts,
    h.valueCounts⟩

theorem together_refocus (h : Together first first' s t) (c : Candidate) :
    Together first first' { s with candidate := c }.refreshFocal
      { t with candidate := c }.refreshFocal :=
  together_refreshFocal (together_withCandidate h c)

theorem together_askValueCounts (h : Together first first' s t) (property : String) :
    Together first first' (s.askValueCounts property) (t.askValueCounts property) := by
  have hquery : s.valueCountsQuery property = t.valueCountsQuery property := by
    rw [valueCountsQuery, valueCountsQuery, h.builder, h.walk, h.candidate]
  constructor
  · exact h.builder
  · exact h.labels
  · change Paired first first' (Tracker.runOrReset _ _ (s.valueCountsQuery property) _).executor
      (Tracker.runOrReset _ _ (t.valueCountsQuery property) _).executor
    rw [hquery]
    exact paired_runOrReset h.executors _ _ _ _ _
  · exact h.saved
  · exact h.candidate
  · exact h.nextLabels
  · exact h.adjacency
  · exact h.propertyCounts
  · have hvalues := h.valueCounts
    unfold valueTexts at hvalues ⊢
    simp only [askValueCounts, Table.map_insert, queryText_runOrReset, hquery, hvalues]

/-- The one answer that a session acts on is the one the executors agree on. -/
theorem together_askNextLabels (h : Together first first' s t) :
    Together first first' s.askNextLabels t.askNextLabels := by
  have hquery : s.nextLabelsQuery = t.nextLabelsQuery := by
    rw [nextLabelsQuery, nextLabelsQuery, h.builder, h.walk]
  have hanswer : (execute s.executor s.nextLabelsQuery).1 =
      (execute t.executor s.nextLabelsQuery).1 :=
    (h.executors.agree _ (h.labels s.walk)).execute
  constructor
  · exact h.builder
  · exact h.labels
  · change Paired first first' (execute s.executor s.nextLabelsQuery).2
      (execute t.executor t.nextLabelsQuery).2
    rw [← hquery]
    exact h.executors.executed _
  · exact h.saved
  · exact h.candidate
  · simp only [askNextLabels, Tracker.run, Tracker.finish_start]
    rw [← hquery, hanswer]
  · exact h.adjacency
  · exact h.propertyCounts
  · exact h.valueCounts

theorem together_selectOnlyLabel (h : Together first first' s t) :
    Together first first' s.selectOnlyLabel t.selectOnlyLabel := by
  have honly : s.onlyLabel = t.onlyLabel := by
    rw [onlyLabel, onlyLabel, h.nextLabels]
  unfold selectOnlyLabel
  rw [← honly, ← h.candidate]
  cases s.onlyLabel with
  | none => exact h
  | some label =>
    by_cases hsame : label = s.candidate.label
    · simpa only [hsame, if_true] using h
    · simp only [hsame, if_false]
      exact together_refocus h (.ofLabel label)

theorem together_refreshNextLabels (h : Together first first' s t) :
    Together first first' s.refreshNextLabels t.refreshNextLabels :=
  together_selectOnlyLabel (together_askNextLabels h)

theorem together_continueFrom (h : Together first first' s t) (saved : SavedWalk σ) :
    Together first first' (s.continueFrom saved) (t.continueFrom saved) := by
  apply together_refreshNextLabels
  exact ⟨h.builder, h.labels, h.executors, rfl, rfl, h.nextLabels, rfl, rfl, rfl⟩

variable [KeyValueStore σ]

theorem together_start (store : σ) {e : Recorded ε} {e' : Recorded ε'}
    (he : Paired first first' e e') {b : QueryBuilder}
    (hb : ∀ w, AgreeOn (b.reachableLabels w) first first') :
    Together first first' (start store e b) (start store e' b) := by
  apply together_refreshNextLabels
  exact ⟨rfl, hb, he, rfl, rfl, rfl, rfl, rfl, rfl⟩

/-! ## One action -/

/-- Both actions fail with the same error, or both go through and the sessions stay together. -/
def TogetherAfter (first : ε) (first' : ε') :
    Except WalkError (Stepper σ (Recorded ε)) → Except WalkError (Stepper σ (Recorded ε')) → Prop
  | .ok s, .ok t => Together first first' s t
  | .error e, .error e' => e = e'
  | _, _ => False

theorem together_pickRelationship (h : Together first first' s t) (typeName : String)
    (filters : List PropertyFilter) (direction : Direction) :
    TogetherAfter first first' (s.pickRelationship typeName filters direction)
      (t.pickRelationship typeName filters direction) := by
  have hcompose : s.composeStep typeName filters direction =
      t.composeStep typeName filters direction := by
    rw [composeStep, composeStep, h.candidate]
  unfold pickRelationship
  rw [hcompose, h.saved]
  cases t.composeStep typeName filters direction with
  | error e => rfl
  | ok step => exact together_continueFrom h (t.saved.append step)

theorem together_perform (h : Together first first' s t) (action : Action) :
    TogetherAfter first first' (s.perform action) (t.perform action) := by
  cases action with
  | setLabel label => exact together_refocus h (.ofLabel label)
  | addFilter name value =>
    simp only [perform, addFilter, h.candidate]
    cases PropertyFilter.create name value with
    | error e => rfl
    | ok f => exact together_refocus h (t.candidate.withFilter f)
  | removeFilter index =>
    simp only [perform, removeFilter, h.candidate]
    split
    · exact together_refocus h (t.candidate.withoutFilter index)
    · exact h
  | askValueCounts property => exact together_askValueCounts h property
  | pickRelationship typeName filters direction =>
    exact together_pickRelationship h typeName filters direction
  | pickGroup typeName filters direction =>
    exact together_pickRelationship h typeName filters.filters direction
  | deleteStep index =>
    simp only [perform, deleteStep, h.walk, h.saved]
    split
    · exact together_continueFrom h (t.saved.truncate index)
    · exact h
  | clearWalk =>
    simp only [perform, clearWalk, h.saved]
    exact together_continueFrom h t.saved.clear
  | refreshNextLabels => exact together_refreshNextLabels h
  | allLabels =>
    simp only [perform, allLabels, ← h.builder]
    exact ⟨rfl, h.labels, h.executors.executed _, h.saved, h.candidate, h.nextLabels, h.adjacency,
      h.propertyCounts, h.valueCounts⟩
  | allRelationshipTypes =>
    simp only [perform, allRelationshipTypes, ← h.builder]
    exact ⟨rfl, h.labels, h.executors.executed _, h.saved, h.candidate, h.nextLabels, h.adjacency,
      h.propertyCounts, h.valueCounts⟩
  | reopen =>
    simp only [perform, h.saved, ← h.builder]
    exact together_start t.saved.store h.executors h.labels

theorem together_next (h : Together first first' s t) (action : Action) :
    Together first first' (s.next action) (t.next action) := by
  have hafter := together_perform h action
  unfold next
  cases hs : s.perform action <;> cases ht : t.perform action <;> rw [hs, ht] at hafter
  · exact h
  · exact hafter.elim
  · exact hafter.elim
  · exact hafter

theorem together_follow (h : Together first first' s t) (actions : List Action) :
    Together first first' (s.follow actions) (t.follow actions) := by
  induction actions generalizing s t with
  | nil => exact h
  | cons action actions ih => exact ih (together_next h action)

/-! ## Whole sessions -/

open Operation

/-- All that two sessions have in common whose display queries alone are answered differently. -/
structure SameCourse (first : ε) (first' : ε') (s : Stepper σ (Recorded ε))
    (t : Stepper σ (Recorded ε')) : Prop where
  walk : s.walk = t.walk
  store : s.saved.store = t.saved.store
  candidate : s.candidate = t.candidate
  nextLabels : s.nextLabels.state = t.nextLabels.state
  queriesUsed : s.queriesUsed = t.queriesUsed
  sent : s.executor.asked = t.executor.asked
  /-- The next action goes through in both sessions or fails in both for the same reason. -/
  outcome : ∀ action, ((ofAction action).runOn s).1 = ((ofAction action).runOn t).1
  allLabels : AgreeOn s.builder.allLabels first first' → s.allLabels.1 = t.allLabels.1
  allRelationshipTypes : AgreeOn s.builder.allRelationshipTypes first first' →
    s.allRelationshipTypes.1 = t.allRelationshipTypes.1

theorem outcome_of_together (h : Together first first' s t) (action : Action) :
    ((ofAction action).runOn s).1 = ((ofAction action).runOn t).1 := by
  have hafter := together_perform h action
  rw [runOn_ofAction, runOn_ofAction]
  cases hs : s.perform action <;> cases ht : t.perform action <;> rw [hs, ht] at hafter
  · exact congrArg Except.error hafter
  · exact hafter.elim
  · exact hafter.elim
  · rfl

omit [KeyValueStore σ] in
theorem queriesUsed_of_together (h : Together first first' s t) :
    s.queriesUsed = t.queriesUsed := by
  have hentries := congrArg Table.entries h.valueCounts
  have hvalues := congrArg
    (List.map fun e => (valueCountsTitle s.candidate.label e.1, e.2)) hentries
  simp only [valueTexts, Table.map, List.map_map, Function.comp_def] at hvalues
  unfold queriesUsed
  rw [h.nextLabels, h.adjacency, h.propertyCounts, hvalues, h.candidate]

theorem sameCourse_of_together (h : Together first first' s t) : SameCourse first first' s t where
  walk := h.walk
  store := congrArg SavedWalk.store h.saved
  candidate := h.candidate
  nextLabels := h.nextLabels
  queriesUsed := queriesUsed_of_together h
  sent := h.executors.asked
  outcome := outcome_of_together h
  allLabels := by
    intro hagree
    have hanswer := (h.executors.agree _ hagree).execute
    have hrecorded : (execute s.executor s.builder.allLabels).1 =
        (execute t.executor s.builder.allLabels).1 := hanswer
    simp only [Stepper.allLabels, ← h.builder, hrecorded]
  allRelationshipTypes := by
    intro hagree
    have hanswer := (h.executors.agree _ hagree).execute
    have hrecorded : (execute s.executor s.builder.allRelationshipTypes).1 =
        (execute t.executor s.builder.allRelationshipTypes).1 := hanswer
    simp only [Stepper.allRelationshipTypes, ← h.builder, hrecorded]

/-- Nothing but the labels that a walk reaches has a say in where a session goes. -/
theorem display_never_steers (store : σ) (b : QueryBuilder) {executor : ε} {executor' : ε'}
    (h : ∀ w, AgreeOn (b.reachableLabels w) executor executor') (actions : List Action) :
    SameCourse executor executor' ((start store (Recorded.mk executor []) b).follow actions)
      ((start store (Recorded.mk executor' []) b).follow actions) := by
  have hpaired : Paired executor executor' (Recorded.mk executor []) (Recorded.mk executor' []) :=
    ⟨rfl, fun _ hagree => hagree⟩
  exact sameCourse_of_together (together_follow (together_start store hpaired h) actions)

end Session

/-! ## Two scripts -/

theorem hasPart_self (part : List Char) : hasPart part part = true := by
  cases part with
  | nil => rfl
  | cons c part => simp [hasPart]

theorem hasPart_append (before part : List Char) : hasPart part (before ++ part) = true := by
  induction before with
  | nil => exact hasPart_self part
  | cons c before ih => simp [hasPart, ih]

/-- The first rule of a script, and one that is never used up. -/
def Leads (r : Rule) (script : Script) : Prop :=
  r.usesLeft = none ∧ ∃ others, script.rules = r :: others

theorem leads_ask {r : Rule} {script : Script} (h : Leads r script) (q : Query) :
    Leads r (Executor.ask script q).2 := by
  obtain ⟨hr, others, hrules⟩ := h
  refine ⟨hr, ?_⟩
  have hspend : r.spend = r := by
    cases r
    simp_all [Rule.spend]
  simp only [Executor.ask, Script.answer, hrules, answerFrom, Rule.isUsedUp, hr]
  by_cases hq : r.isFor q.text = true
  · exact ⟨others, by simp [hq, hspend]⟩
  · cases hothers : answerFrom q.text others with
    | none => exact ⟨others, by simp [hq]⟩
    | some found => exact ⟨found.2, by simp [hq]⟩

theorem leads_afterAll {r : Rule} {script : Script} (h : Leads r script) (asked : List Query) :
    Leads r (afterAll script asked) := by
  induction asked generalizing script with
  | nil => exact h
  | cons q asked ih => exact ih (leads_ask h q)

theorem reply_of_leads {r : Rule} {script : Script} (h : Leads r script) {q : Query}
    (hq : r.isFor q.text = true) : (Executor.ask script q).1 = r.reply := by
  obtain ⟨hr, others, hrules⟩ := h
  simp [Executor.ask, Script.answer, hrules, answerFrom, Rule.isUsedUp, hr, hq]

/-- Every walk leads to cities; whatever else is asked gets one and the same reply. -/
def citiesAnd (reply : Reply) : Script :=
  .ofRules [⟨[reachableSuffix], twoCities, none⟩, ⟨[], reply, none⟩]

theorem agreeOn_citiesAnd (b : QueryBuilder) (w : Walk) (reply reply' : Reply) :
    AgreeOn (b.reachableLabels w) (citiesAnd reply) (citiesAnd reply') := by
  intro asked
  have hq : Rule.isFor ⟨[reachableSuffix], twoCities, none⟩ (b.reachableLabels w).text = true := by
    simp [Rule.isFor, QueryBuilder.reachableLabels, hasPart_append]
  have hleads : ∀ reply, Leads ⟨[reachableSuffix], twoCities, none⟩ (citiesAnd reply) :=
    fun reply => ⟨rfl, _, rfl⟩
  rw [reply_of_leads (leads_afterAll (hleads reply) asked) hq,
    reply_of_leads (leads_afterAll (hleads reply') asked) hq]

/-- A step with a filter, and the label selected behind it. -/
def cityActions : List Action :=
  [.setLabel "Person", .addFilter "name" "Ada", .askValueCounts "age",
    .pickRelationship "IN" [] .outbound, .askValueCounts "name"]

def citySession (reply : Reply) : Stepper Memory (Recorded Script) :=
  (start .empty (Recorded.mk (citiesAnd reply) []) default).follow cityActions

/-- No reply at all on one side, and on the other rows that are no adjacency. -/
theorem display_never_steers_cities :
    SameCourse (citiesAnd .silence) (citiesAnd twoCities) (citySession .silence)
      (citySession twoCities) :=
  display_never_steers Memory.empty default
    (fun w => agreeOn_citiesAnd default w .silence twoCities) cityActions

end SchemaWalk.Stepper
