import SchemaWalk.Proofs.Executor.Behaviour
import SchemaWalk.Proofs.SavedWalk.Persistence
import SchemaWalk.Proofs.Stepper.Freshness

/-! # Sessions without a history

As soon as the walk has changed, a session shows what a session shows that finds this walk in its
store: nothing is left of earlier candidates, of their filters, or of what was asked about them.
The executor has to answer by the text of a query, for else it could tell the two apart. -/

namespace SchemaWalk.Stepper

variable {α σ ε σ' ε' : Type}

/-! ## The walk of a session -/

theorem validate_of_composeStep {s : Stepper σ ε} {typeName : String}
    {filters : List PropertyFilter} {direction : Direction} {step : Step}
    (h : s.composeStep typeName filters direction = .ok step) : step.validate = .ok () := by
  unfold composeStep at h
  split at h
  · cases h
  · cases hn : s.candidate.toNodePick with
    | error e => rw [hn] at h; cases h
    | ok origin =>
      cases hr : RelationshipPick.create typeName filters with
      | error e => rw [hn, hr] at h; cases h
      | ok relationship =>
        rw [hn, hr] at h
        cases h
        exact validate_of_create hn hr direction

def ValidWalk (s : Stepper σ ε) : Prop := s.walk.validate = .ok ()

section Walks

variable [KeyValueStore σ]

theorem validate_edit {s : Stepper σ ε} (h : ValidWalk s) {saved : SavedWalk σ}
    (he : Edit s saved) : saved.walk.validate = .ok () := by
  cases he with
  | pick hc =>
    have hstep : SavedWalk.Action.Checked (.append _) := validate_of_composeStep hc
    exact SavedWalk.validate_onWalk h hstep
  | @cut index _ =>
    have htruncate : SavedWalk.Action.Checked (.truncate index) := trivial
    exact SavedWalk.validate_onWalk h htruncate
  | clear => rfl

variable [Executor ε]

theorem validWalk_start (store : σ) (executor : ε) (builder : QueryBuilder) :
    ValidWalk (start store executor builder) := by
  unfold ValidWalk walk start
  rw [saved_refreshNextLabels]
  exact SavedWalk.validate_load store

theorem validWalk_effect {s s' : Stepper σ ε} (h : ValidWalk s) (he : Effect s s') :
    ValidWalk s' := by
  cases he with
  | nothing => exact h
  | refocused _ => exact h
  | valuesAsked property => exact h
  | continued hedit =>
    unfold ValidWalk walk
    rw [saved_continueFrom]
    exact validate_edit h hedit
  | labelsAsked =>
    unfold ValidWalk walk
    rw [saved_refreshNextLabels]
    exact h
  | overviewAsked _ => exact h
  | reopened => exact validWalk_start _ _ _

end Walks

/-! ## The executor of a session -/

section Executors

variable [Executor ε] {P : ε → Prop}

/-- What asking one query keeps, an action keeps. -/
def KeptByAsking (P : ε → Prop) : Prop := ∀ e q, P e → P (execute e q).2

theorem executor_runOrReset (keeps : KeptByAsking P) (t : Tracker α) {e : ε} (h : P e)
    (q : Option Query) (decode : List Row → Except WalkError α) :
    P (t.runOrReset e q decode).executor := by
  cases q with
  | some q => exact keeps e q h
  | none => exact h

theorem executor_refreshFocal (keeps : KeptByAsking P) {s : Stepper σ ε} (h : P s.executor) :
    P s.refreshFocal.executor := by
  have hadjacency : P { s with valueCounts := ∅ }.refreshAdjacency.executor :=
    executor_runOrReset keeps s.adjacency h s.adjacencyQuery decodeAdjacency
  exact executor_runOrReset keeps _ hadjacency _ _

theorem executor_refreshNextLabels (keeps : KeptByAsking P) {s : Stepper σ ε}
    (h : P s.executor) : P s.refreshNextLabels.executor := by
  have hasked : P s.askNextLabels.executor := keeps _ _ h
  unfold refreshNextLabels selectOnlyLabel
  split
  · split
    · exact hasked
    · exact executor_refreshFocal keeps hasked
  · exact hasked

variable [KeyValueStore σ]

theorem executor_start (keeps : KeptByAsking P) (store : σ) {e : ε} (h : P e)
    (builder : QueryBuilder) : P (start store e builder).executor :=
  executor_refreshNextLabels keeps h

theorem executor_effect (keeps : KeptByAsking P) {s s' : Stepper σ ε} (h : P s.executor)
    (he : Effect s s') : P s'.executor := by
  cases he with
  | nothing => exact h
  | refocused _ => exact executor_refreshFocal keeps h
  | valuesAsked property => exact executor_runOrReset keeps _ h _ _
  | continued _ => exact executor_refreshNextLabels keeps h
  | labelsAsked => exact executor_refreshNextLabels keeps h
  | overviewAsked _ => exact keeps _ _ h
  | reopened => exact executor_start keeps _ h _

end Executors

/-! ## What there is to see -/

structure View where
  walk : Walk
  candidate : Candidate
  nextLabels : QueryState Counts
  adjacency : QueryState (List AdjacencyRecord)
  propertyCounts : QueryState Counts
  valueCounts : String → Option (QueryState (List ValueCount))
  groupedAdjacency : GroupedAdjacency × GroupedAdjacency
  queriesUsed : Table String String

/-- Everything that a session lets its user see. -/
def view (s : Stepper σ ε) : View where
  walk := s.walk
  candidate := s.candidate
  nextLabels := s.nextLabels.state
  adjacency := s.adjacency.state
  propertyCounts := s.propertyCounts.state
  valueCounts := s.valueCountState
  groupedAdjacency := s.groupedAdjacency
  queriesUsed := s.queriesUsed

/-- Two steppers that ask the same about their walk. Their stores, their executors and the
generations of their trackers are their own. -/
structure Poised (s : Stepper σ ε) (t : Stepper σ' ε') : Prop where
  builder : s.builder = t.builder
  walk : s.walk = t.walk
  candidate : s.candidate = t.candidate
  adjacency : s.adjacency.state = t.adjacency.state
  propertyCounts : s.propertyCounts.state = t.propertyCounts.state
  valueCounts : s.valueCounts = t.valueCounts

structure Alike (s : Stepper σ ε) (t : Stepper σ' ε') : Prop extends Poised s t where
  nextLabels : s.nextLabels.state = t.nextLabels.state

theorem Alike.view_eq {s : Stepper σ ε} {t : Stepper σ' ε'} (h : Alike s t) :
    s.view = t.view := by
  have hvalues : s.valueCountState = t.valueCountState := by
    funext property
    rw [valueCountState, valueCountState, h.valueCounts]
  have hgrouped : s.groupedAdjacency = t.groupedAdjacency := by
    rw [groupedAdjacency, groupedAdjacency, h.adjacency]
  have hused : s.queriesUsed = t.queriesUsed := by
    rw [queriesUsed, queriesUsed, h.nextLabels, h.adjacency, h.propertyCounts, h.valueCounts,
      h.candidate]
  rw [view, view, h.walk, h.candidate, h.nextLabels, h.adjacency, h.propertyCounts, hvalues,
    hgrouped, hused]

section Asking

variable [Executor ε] [Executor ε'] {answer : String → Reply}

theorem state_run {e : ε} {e' : ε'} (h : AnswersBy answer e) (h' : AnswersBy answer e')
    (t t' : Tracker α) (q : Query) (decode : List Row → Except WalkError α) :
    (t.run e q decode).tracker.state = (t'.run e' q decode).tracker.state := by
  unfold Tracker.run
  simp only [Tracker.finish_start]
  rw [h.execute, h'.execute]

theorem state_runOrReset {e : ε} {e' : ε'} (h : AnswersBy answer e) (h' : AnswersBy answer e')
    (t t' : Tracker α) (q : Option Query) (decode : List Row → Except WalkError α) :
    (t.runOrReset e q decode).tracker.state = (t'.runOrReset e' q decode).tracker.state := by
  cases q with
  | some q => exact state_run h h' t t' q decode
  | none => rfl

theorem keptByAsking_answersBy : KeptByAsking (AnswersBy answer : ε → Prop) :=
  fun _ q h => h.executed q

variable {s : Stepper σ ε} {t : Stepper σ' ε'}

/-- The trackers of the focal node start anew, so what they showed before plays no part. -/
theorem alike_refreshFocal (hs : AnswersBy answer s.executor) (ht : AnswersBy answer t.executor)
    (hb : s.builder = t.builder) (hw : s.walk = t.walk) (hc : s.candidate = t.candidate)
    (hn : s.nextLabels.state = t.nextLabels.state) : Alike s.refreshFocal t.refreshFocal := by
  have hadjacency : s.adjacencyQuery = t.adjacencyQuery := by
    rw [adjacencyQuery, adjacencyQuery, hb, hw, hc]
  have hkeys : s.propertyCountsQuery = t.propertyCountsQuery := by
    rw [propertyCountsQuery, propertyCountsQuery, hb, hw, hc]
  have hs' : AnswersBy answer
      (s.adjacency.runOrReset s.executor s.adjacencyQuery decodeAdjacency).executor :=
    executor_runOrReset keptByAsking_answersBy _ hs _ _
  have ht' : AnswersBy answer
      (t.adjacency.runOrReset t.executor t.adjacencyQuery decodeAdjacency).executor :=
    executor_runOrReset keptByAsking_answersBy _ ht _ _
  constructor
  · constructor
    · exact hb
    · exact hw
    · exact hc
    · change (s.adjacency.runOrReset s.executor s.adjacencyQuery decodeAdjacency).tracker.state =
        (t.adjacency.runOrReset t.executor t.adjacencyQuery decodeAdjacency).tracker.state
      rw [hadjacency]
      exact state_runOrReset hs ht _ _ _ _
    · change (s.propertyCounts.runOrReset _ s.propertyCountsQuery _).tracker.state =
        (t.propertyCounts.runOrReset _ t.propertyCountsQuery _).tracker.state
      rw [hkeys]
      exact state_runOrReset hs' ht' _ _ _ _
    · rfl
  · exact hn

theorem alike_askNextLabels (hs : AnswersBy answer s.executor) (ht : AnswersBy answer t.executor)
    (h : Poised s t) : Alike s.askNextLabels t.askNextLabels := by
  have hquery : s.nextLabelsQuery = t.nextLabelsQuery := by
    rw [nextLabelsQuery, nextLabelsQuery, h.builder, h.walk]
  constructor
  · exact ⟨h.builder, h.walk, h.candidate, h.adjacency, h.propertyCounts, h.valueCounts⟩
  · change (s.nextLabels.run s.executor s.nextLabelsQuery _).tracker.state =
      (t.nextLabels.run t.executor t.nextLabelsQuery _).tracker.state
    rw [hquery]
    exact state_run hs ht _ _ _ _

/-- The same label is selected on both sides, or none is. -/
theorem alike_selectOnlyLabel (hs : AnswersBy answer s.executor)
    (ht : AnswersBy answer t.executor) (h : Alike s t) :
    Alike s.selectOnlyLabel t.selectOnlyLabel := by
  have honly : s.onlyLabel = t.onlyLabel := by
    rw [onlyLabel, onlyLabel, h.nextLabels]
  cases hlabel : s.onlyLabel with
  | none =>
    rw [selectOnlyLabel_of_none hlabel, selectOnlyLabel_of_none (honly ▸ hlabel)]
    exact h
  | some label =>
    have hlabel' : t.onlyLabel = some label := honly ▸ hlabel
    by_cases hsame : label = s.candidate.label
    · have hsame' : label = t.candidate.label := h.candidate ▸ hsame
      rw [selectOnlyLabel_of_selected hlabel hsame, selectOnlyLabel_of_selected hlabel' hsame']
      exact h
    · have hsame' : label ≠ t.candidate.label := h.candidate ▸ hsame
      rw [selectOnlyLabel_of_some hlabel hsame, selectOnlyLabel_of_some hlabel' hsame']
      exact alike_refreshFocal hs ht h.builder h.walk rfl h.nextLabels

theorem alike_refreshNextLabels (hs : AnswersBy answer s.executor)
    (ht : AnswersBy answer t.executor) (h : Poised s t) :
    Alike s.refreshNextLabels t.refreshNextLabels := by
  have hs' : AnswersBy answer s.askNextLabels.executor := hs.executed _
  have ht' : AnswersBy answer t.askNextLabels.executor := ht.executed _
  exact alike_selectOnlyLabel hs' ht' (alike_askNextLabels hs ht h)

end Asking

/-! ## After a change of the walk -/

/-- Shows what a session shows that finds the walk in its store. The store, what else it holds,
and the executor may be any, as long as the executor replies in the same way. -/
def ShowsOpening (answer : String → Reply) (b : QueryBuilder) (w : Walk) (s : Stepper σ ε) : Prop :=
  ∀ (σ' ε' : Type) [KeyValueStore σ'] [Executor ε'] (store : σ') (executor : ε'),
    AnswersBy answer executor → KeyValueStore.get store walkKey = .ok (some w.snapshot) →
      s.view = (start store executor b).view

section Session

variable [Executor ε] {answer : String → Reply} {b : QueryBuilder}

/-- All that is left of a session after a change is its builder, its walk and its executor. -/
theorem showsOpening_continueFrom {s : Stepper σ ε} {saved : SavedWalk σ}
    (hb : s.builder = b) (hs : AnswersBy answer s.executor)
    (hvalid : saved.walk.validate = .ok ()) :
    ShowsOpening answer b saved.walk (s.continueFrom saved) := by
  intro σ' ε' _ _ store executor he hstore
  have hwalk : (SavedWalk.load store).walk = saved.walk :=
    SavedWalk.walk_load_of_get hstore hvalid
  apply Alike.view_eq
  unfold continueFrom start
  apply alike_refreshNextLabels
  · exact hs
  · exact he
  · exact ⟨hb, hwalk.symm, rfl, rfl, rfl, rfl⟩

variable [KeyValueStore σ]

/-- What every session has that asks an executor of this kind. -/
structure Reached (answer : String → Reply) (b : QueryBuilder) (s : Stepper σ ε) : Prop where
  current : UpToDate b s
  valid : ValidWalk s
  answers : AnswersBy answer s.executor

theorem reached_start (store : σ) {executor : ε} (h : AnswersBy answer executor) :
    Reached answer b (start store executor b) :=
  ⟨upToDate_start store executor b, validWalk_start store executor b,
    executor_start keptByAsking_answersBy store h b⟩

theorem reached_effect {s s' : Stepper σ ε} (h : Reached answer b s) (he : Effect s s') :
    Reached answer b s' :=
  ⟨upToDate_effect h.current he, validWalk_effect h.valid he,
    executor_effect keptByAsking_answersBy h.answers he⟩

theorem showsOpening_of_commits {s s' : Stepper σ ε} (h : Reached answer b s) {action : Action}
    (hc : s.Commits action) (hok : s.perform action = .ok s') :
    ShowsOpening answer b s'.walk s' := by
  obtain ⟨saved, hedit, rfl⟩ := continued_of_commits hc hok
  have hopening := showsOpening_continueFrom h.current.builder h.answers
    (validate_edit h.valid hedit)
  rw [walk, saved_continueFrom]
  exact hopening

/-- A step that is picked and deleted again might as well never have been picked. -/
theorem showsOpening_of_undone {s s' : Stepper σ ε} (h : Reached answer b s) {typeName : String}
    {filters : List PropertyFilter} {direction : Direction}
    (hok : s.pickRelationship typeName filters direction = .ok s') :
    ShowsOpening answer b s.walk (s'.deleteStep s.walk.length) := by
  have hreached : Reached answer b s' := reached_effect h (effect_pickRelationship hok)
  obtain ⟨step, -, rfl⟩ := continued_of_pickRelationship hok
  have hwalk : (s.continueFrom (s.saved.append step)).walk = s.walk.append step := by
    rw [walk, saved_continueFrom]
    rfl
  generalize s.continueFrom (s.saved.append step) = s' at hreached hwalk ⊢
  have hlt : s.walk.length < s'.walk.length := by
    rw [hwalk, Walk.length_append]
    omega
  have hcommits : s'.Commits (.deleteStep s.walk.length) := hlt
  have hopening := showsOpening_of_commits hreached hcommits rfl
  have hback : (s'.deleteStep s.walk.length).walk = s.walk := by
    rw [deleteStep, if_pos hlt, walk, saved_continueFrom, SavedWalk.walk_truncate]
    change s'.walk.truncate s.walk.length = s.walk
    rw [hwalk, Walk.truncate_append_length]
  rw [hback] at hopening
  exact hopening

/-- Nothing but the walk outlives a change of the walk. -/
structure ForgetsHistory (answer : String → Reply) (b : QueryBuilder) (s : Stepper σ ε) :
    Prop where
  committed : ∀ action s', s.Commits action → s.perform action = .ok s' →
    ShowsOpening answer b s'.walk s'
  undone : ∀ typeName filters direction s',
    s.pickRelationship typeName filters direction = .ok s' →
      ShowsOpening answer b s.walk (s'.deleteStep s.walk.length)

theorem committed_session_forgets (store : σ) {executor : ε} (h : AnswersBy answer executor)
    (b : QueryBuilder) (actions : List Action) :
    ForgetsHistory answer b ((start store executor b).follow actions) := by
  have hreached : Reached answer b ((start store executor b).follow actions) :=
    follow_induction (fun _ _ => reached_effect) (reached_start store h) actions
  constructor
  · exact fun action s' hc hok => showsOpening_of_commits hreached hc hok
  · exact fun typeName filters direction s' hok => showsOpening_of_undone hreached hok

end Session

/-- Whatever is asked, there are two cities. -/
def twoCities : Reply :=
  .rows [.ofList [("label", .string "City"), ("count", .number (.integer 2 (by decide)))]]

/-- A candidate with a filter, and the values of one property asked for. -/
def filteredSession : Stepper Memory FixedReply :=
  (start .empty (FixedReply.mk twoCities) default).follow
    [.setLabel "Person", .addFilter "name" "Ada", .askValueCounts "age"]

theorem committed_session_forgets_filter :
    ∃ s', filteredSession.perform (.pickRelationship "IN" [] .outbound) = .ok s' ∧
      s'.view = (start (Memory.empty.set walkKey s'.walk.snapshot).2 (FixedReply.mk twoCities)
        default).view := by
  have hforgets := committed_session_forgets Memory.empty (answersBy_fixedReply twoCities) default
    [.setLabel "Person", .addFilter "name" "Ada", .askValueCounts "age"]
  have hpick : ∃ s', filteredSession.perform (.pickRelationship "IN" [] .outbound) = .ok s' :=
    ⟨_, rfl⟩
  obtain ⟨s', hok⟩ := hpick
  refine ⟨s', hok, ?_⟩
  apply hforgets.committed (.pickRelationship "IN" [] .outbound) s' trivial hok
  · exact answersBy_fixedReply twoCities
  · exact Memory.get_set rfl rfl walkKey _

end SchemaWalk.Stepper
