import SchemaWalk.Proofs.Executor.Behaviour
import SchemaWalk.Proofs.Stepper.Freshness
import SchemaWalk.Proofs.Stepper.Operation

/-! # What a stepper sends

The queries of an action are fixed by the walk, by the candidate, and, where it asks for the labels
that the walk reaches, by what they are. Nothing is sent twice, whatever the executor replies. -/

namespace SchemaWalk.Stepper

variable {σ ε : Type}

/-- The two queries about a focal node, in the order in which they are sent. -/
def focalQueries (b : QueryBuilder) (w : Walk) (c : Candidate) : List Query :=
  (b.adjacentRelationships w c).toList ++ (b.propertyKeys w c).toList

/-- The label of an answer that has one label and no other. -/
def soleLabel (answer : Except WalkError (List Row)) : Option String :=
  match answer.bind (decodeCounts "label") with
  | .error _ => none
  | .ok counts =>
    match counts.keys with
    | [label] => some label
    | _ => none

/-- The queries that follow when a label is the only one there is. -/
def selectionQueries (b : QueryBuilder) (w : Walk) (selected : String) :
    Option String → List Query
  | some label =>
    if label ≠ "" ∧ label ≠ selected then focalQueries b w (.ofLabel label) else []
  | none => []

/-- The queries of a walk whose labels are asked for while a label is selected. -/
def labelQueries [Executor ε] (b : QueryBuilder) (e : ε) (w : Walk) (selected : String) :
    List Query :=
  b.reachableLabels w ::
    selectionQueries b w selected (soleLabel (execute e (b.reachableLabels w)).1)

/-- What an action sends. The candidate is gone before the labels of a changed walk are asked
for. -/
def traffic [KeyValueStore σ] [Executor ε] (b : QueryBuilder) (s : Stepper σ ε) :
    Action → List Query
  | .setLabel label => focalQueries b s.walk (.ofLabel label)
  | .addFilter name value =>
    match PropertyFilter.create name value with
    | .ok f => focalQueries b s.walk (s.candidate.withFilter f)
    | .error _ => []
  | .removeFilter index =>
    if index < s.candidate.filters.length then
      focalQueries b s.walk (s.candidate.withoutFilter index)
    else []
  | .askValueCounts property => (b.propertyValues s.walk s.candidate property).toList
  | .pickRelationship typeName filters direction =>
    match s.composeStep typeName filters direction with
    | .ok step => labelQueries b s.executor (s.walk.append step) ""
    | .error _ => []
  | .pickGroup typeName filters direction =>
    match s.composeStep typeName filters.filters direction with
    | .ok step => labelQueries b s.executor (s.walk.append step) ""
    | .error _ => []
  | .deleteStep index =>
    if index < s.walk.length then labelQueries b s.executor (s.walk.truncate index) "" else []
  | .clearWalk => labelQueries b s.executor .empty ""
  | .refreshNextLabels => labelQueries b s.executor s.walk s.candidate.label
  | .allLabels => [b.allLabels]
  | .allRelationshipTypes => [b.allRelationshipTypes]
  | .reopen => labelQueries b s.executor (SavedWalk.load s.saved.store).walk ""

def trafficAlong [KeyValueStore σ] [Executor ε] (s : Stepper σ ε) : List Action → List Query
  | [] => []
  | action :: actions => traffic s.builder s action ++ trafficAlong (s.next action) actions

/-! ## Requests on record -/

section Recorded

variable [Executor ε]

theorem asked_runOrReset {α : Type} (t : Tracker α) (e : Recorded ε) (q : Option Query)
    (decode : List Row → Except WalkError α) :
    (t.runOrReset e q decode).executor.asked = e.asked ++ q.toList := by
  cases q with
  | some q => rfl
  | none => exact (List.append_nil e.asked).symm

theorem asked_refreshFocal (s : Stepper σ (Recorded ε)) :
    s.refreshFocal.executor.asked =
      s.executor.asked ++ focalQueries s.builder s.walk s.candidate := by
  have hadjacent := asked_runOrReset s.adjacency s.executor s.adjacencyQuery decodeAdjacency
  have hkeys := asked_runOrReset s.propertyCounts
    (s.adjacency.runOrReset s.executor s.adjacencyQuery decodeAdjacency).executor
    s.propertyCountsQuery (decodeCounts "key")
  rw [hadjacent, List.append_assoc] at hkeys
  exact hkeys

/-- The selected label shows in the tracker as soon as the labels are answered. -/
theorem onlyLabel_askNextLabels (s : Stepper σ ε) :
    s.askNextLabels.onlyLabel = soleLabel (execute s.executor s.nextLabelsQuery).1 := by
  unfold onlyLabel askNextLabels soleLabel Tracker.run
  simp only [Tracker.finish_start]
  cases (execute s.executor s.nextLabelsQuery).1.bind (decodeCounts "label") with
  | ok counts =>
    simp only [QueryState.settle, Option.map_some]
    rcases counts.keys with _ | ⟨label, _ | ⟨other, rest⟩⟩ <;> rfl
  | error e => rfl

theorem focalQueries_unlabelled (b : QueryBuilder) (w : Walk) {c : Candidate} (h : c.label = "") :
    focalQueries b w c = [] := by
  simp [focalQueries, QueryBuilder.adjacentRelationships, QueryBuilder.propertyKeys,
    focal_eq_none w h]

theorem asked_setLabel (s : Stepper σ (Recorded ε)) (label : String) :
    (s.setLabel label).executor.asked =
      s.executor.asked ++ focalQueries s.builder s.walk (.ofLabel label) :=
  asked_refreshFocal { s with candidate := .ofLabel label }

theorem asked_selectOnlyLabel (s : Stepper σ (Recorded ε)) :
    s.selectOnlyLabel.executor.asked =
      s.executor.asked ++ selectionQueries s.builder s.walk s.candidate.label s.onlyLabel := by
  cases honly : s.onlyLabel with
  | none =>
    rw [selectOnlyLabel_of_none honly]
    exact (List.append_nil _).symm
  | some label =>
    by_cases hsame : label = s.candidate.label
    · simp [selectOnlyLabel, honly, hsame, selectionQueries]
    · rw [selectOnlyLabel_of_some honly hsame, asked_setLabel]
      by_cases hempty : label = ""
      · -- The empty label is selected too, but there is nothing to ask about it.
        subst hempty
        rw [focalQueries_unlabelled s.builder s.walk rfl]
        simp [selectionQueries]
      · simp [selectionQueries, hempty, hsame]

theorem asked_refreshNextLabels (s : Stepper σ (Recorded ε)) :
    s.refreshNextLabels.executor.asked =
      s.executor.asked ++ labelQueries s.builder s.executor s.walk s.candidate.label := by
  have hselect := asked_selectOnlyLabel s.askNextLabels
  rw [onlyLabel_askNextLabels] at hselect
  have hasked : s.askNextLabels.executor.asked =
      s.executor.asked ++ [s.builder.reachableLabels s.walk] := rfl
  rw [hasked, List.append_assoc] at hselect
  exact hselect

theorem asked_continueFrom (s : Stepper σ (Recorded ε)) (saved : SavedWalk σ) :
    (s.continueFrom saved).executor.asked =
      s.executor.asked ++ labelQueries s.builder s.executor saved.walk "" :=
  asked_refreshNextLabels (resetCandidate { s with saved })

variable [KeyValueStore σ]

theorem asked_start (store : σ) (e : Recorded ε) (b : QueryBuilder) :
    (start store e b).executor.asked =
      e.asked ++ labelQueries b e (SavedWalk.load store).walk "" :=
  asked_refreshNextLabels _

theorem asked_pickRelationship (s : Stepper σ (Recorded ε)) (typeName : String)
    (filters : List PropertyFilter) (direction : Direction) :
    (s.next (.pickRelationship typeName filters direction)).executor.asked =
      s.executor.asked ++ traffic s.builder s (.pickRelationship typeName filters direction) := by
  simp only [next, perform, pickRelationship, traffic]
  cases s.composeStep typeName filters direction with
  | error e => exact (List.append_nil _).symm
  | ok step => exact asked_continueFrom s (s.saved.append step)

theorem asked_next (s : Stepper σ (Recorded ε)) (action : Action) :
    (s.next action).executor.asked = s.executor.asked ++ traffic s.builder s action := by
  cases action with
  | setLabel label => exact asked_setLabel s label
  | addFilter name value =>
    simp only [next, perform, addFilter, traffic]
    cases PropertyFilter.create name value with
    | error e => exact (List.append_nil _).symm
    | ok f => exact asked_refreshFocal { s with candidate := s.candidate.withFilter f }
  | removeFilter index =>
    simp only [next, perform, removeFilter, traffic]
    split
    · exact asked_refreshFocal { s with candidate := s.candidate.withoutFilter index }
    · exact (List.append_nil _).symm
  | askValueCounts property => exact asked_runOrReset _ _ _ _
  | pickRelationship typeName filters direction =>
    exact asked_pickRelationship s typeName filters direction
  | pickGroup typeName filters direction =>
    exact asked_pickRelationship s typeName filters.filters direction
  | deleteStep index =>
    simp only [next, perform, deleteStep, traffic]
    split
    · exact asked_continueFrom s (s.saved.truncate index)
    · exact (List.append_nil _).symm
  | clearWalk => exact asked_continueFrom s s.saved.clear
  | refreshNextLabels => exact asked_refreshNextLabels s
  | allLabels => rfl
  | allRelationshipTypes => rfl
  | reopen => exact asked_start _ _ _

theorem asked_follow (s : Stepper σ (Recorded ε)) (actions : List Action) :
    (s.follow actions).executor.asked = s.executor.asked ++ trafficAlong s actions := by
  induction actions generalizing s with
  | nil => exact (List.append_nil _).symm
  | cons action actions ih =>
    rw [follow_cons, ih, asked_next, trafficAlong, List.append_assoc]

end Recorded

/-! ## What the traffic is like -/

theorem focalQueries_labelled (b : QueryBuilder) (w : Walk) {c : Candidate} (h : c.label ≠ "") :
    ∃ adjacent keys, b.adjacentRelationships w c = some adjacent ∧
      b.propertyKeys w c = some keys ∧ focalQueries b w c = [adjacent, keys] := by
  obtain ⟨text, htext⟩ := focal_isSome w h
  refine ⟨_, _, congrArg _ htext, congrArg _ htext, ?_⟩
  simp [focalQueries, QueryBuilder.adjacentRelationships, QueryBuilder.propertyKeys, htext]

theorem propertyValues_isSome (b : QueryBuilder) (w : Walk) {c : Candidate} {property : String}
    (hl : c.label ≠ "") (hp : property ≠ "") : ∃ q, b.propertyValues w c property = some q := by
  obtain ⟨text, htext⟩ := focal_isSome w hl
  simp [QueryBuilder.propertyValues, hp, htext]

theorem propertyValues_eq_none (b : QueryBuilder) (w : Walk) {c : Candidate} {property : String}
    (h : c.label = "" ∨ property = "") : b.propertyValues w c property = none := by
  rcases h with hl | rfl
  · simp [QueryBuilder.propertyValues, focal_eq_none w hl]
  · simp [QueryBuilder.propertyValues]

def Timely (b : QueryBuilder) (queries : List Query) : Prop :=
  ∀ q ∈ queries, q.timeout = b.walkTimeout

theorem timely_focalQueries (b : QueryBuilder) (w : Walk) (c : Candidate) :
    Timely b (focalQueries b w c) := by
  intro q hq
  rcases List.mem_append.mp hq with hq | hq
  · obtain ⟨text, -, rfl⟩ := Option.map_eq_some_iff.mp (Option.mem_toList.mp hq)
    rfl
  · obtain ⟨text, -, rfl⟩ := Option.map_eq_some_iff.mp (Option.mem_toList.mp hq)
    rfl

theorem timely_propertyValues (b : QueryBuilder) (w : Walk) (c : Candidate) (property : String) :
    Timely b (b.propertyValues w c property).toList := by
  intro q hq
  unfold QueryBuilder.propertyValues at hq
  split at hq
  · cases hq
  · obtain ⟨text, -, rfl⟩ := Option.map_eq_some_iff.mp (Option.mem_toList.mp hq)
    rfl

theorem timely_nil (b : QueryBuilder) : Timely b [] := by
  intro q hq
  cases hq

theorem timely_labelQueries [Executor ε] (b : QueryBuilder) (e : ε) (w : Walk)
    (selected : String) : Timely b (labelQueries b e w selected) := by
  intro q hq
  rcases List.mem_cons.mp hq with rfl | hq
  · rfl
  · unfold selectionQueries at hq
    split at hq
    · split at hq
      · exact timely_focalQueries b w _ q hq
      · cases hq
    · cases hq

theorem timely_traffic [KeyValueStore σ] [Executor ε] (b : QueryBuilder) (s : Stepper σ ε)
    {action : Action} (hl : action ≠ .allLabels) (ht : action ≠ .allRelationshipTypes) :
    Timely b (traffic b s action) := by
  cases action with
  | setLabel label => exact timely_focalQueries _ _ _
  | addFilter name value =>
    simp only [traffic]
    split
    · exact timely_focalQueries _ _ _
    · exact timely_nil b
  | removeFilter index =>
    simp only [traffic]
    split
    · exact timely_focalQueries _ _ _
    · exact timely_nil b
  | askValueCounts property => exact timely_propertyValues _ _ _ _
  | pickRelationship _ _ _ | pickGroup _ _ _ | deleteStep _ =>
    simp only [traffic]
    split
    · exact timely_labelQueries _ _ _ _
    · exact timely_nil b
  | clearWalk | refreshNextLabels | reopen => exact timely_labelQueries _ _ _ _
  | allLabels => exact absurd rfl hl
  | allRelationshipTypes => exact absurd rfl ht

/-! ## Whole sessions -/

section Session

open Operation

variable [Executor ε] [KeyValueStore σ]

theorem traffic_of_error {s : Stepper σ (Recorded ε)} {action : Action} {e : WalkError}
    (h : s.perform action = .error e) : traffic s.builder s action = [] := by
  have hasked := asked_next s action
  have hkept : s.next action = s := by simp [next, h]
  rw [hkept] at hasked
  exact List.self_eq_append_right.mp hasked

theorem traffic_of_commits {s s' : Stepper σ (Recorded ε)} {action : Action}
    (hc : s.Commits action) (h : s.perform action = .ok s') :
    traffic s.builder s action = labelQueries s.builder s.executor s'.walk "" := by
  have hasked := asked_next s action
  have hnext : s.next action = s' := by simp [next, h]
  obtain ⟨saved, -, rfl⟩ := continued_of_commits hc h
  rw [hnext, asked_continueFrom] at hasked
  rw [walk, saved_continueFrom]
  exact (List.append_cancel_left hasked).symm

/-- What one action sends, whatever came before it. -/
structure ExactTraffic (b : QueryBuilder) (s : Stepper σ (Recorded ε)) : Prop where
  sent : ∀ action, ((ofAction action).runOn s).2.executor.asked =
    s.executor.asked ++ traffic b s action
  committed : ∀ action s', s.Commits action → s.perform action = .ok s' →
    traffic b s action = labelQueries b s.executor s'.walk ""
  refused : ∀ action e, s.perform action = .error e → traffic b s action = []
  /-- Adjacency first, then the properties. -/
  focal : ∀ w c, c.label ≠ "" → ∃ adjacent keys, b.adjacentRelationships w c = some adjacent ∧
    b.propertyKeys w c = some keys ∧ focalQueries b w c = [adjacent, keys]
  noFocal : ∀ w c, c.label = "" → focalQueries b w c = []
  values : ∀ property, s.candidate.label ≠ "" → property ≠ "" →
    ∃ q, b.propertyValues s.walk s.candidate property = some q ∧
      traffic b s (.askValueCounts property) = [q]
  noValues : ∀ property, s.candidate.label = "" ∨ property = "" →
    traffic b s (.askValueCounts property) = []
  timely : ∀ action, action ≠ .allLabels → action ≠ .allRelationshipTypes →
    Timely b (traffic b s action)

theorem exactTraffic_of_builder {b : QueryBuilder} {s : Stepper σ (Recorded ε)}
    (h : s.builder = b) : ExactTraffic b s := by
  subst h
  constructor
  · intro action
    rw [snd_runOn_ofAction]
    exact asked_next s action
  · exact fun action s' hc hok => traffic_of_commits hc hok
  · exact fun action e herr => traffic_of_error herr
  · exact fun w c hl => focalQueries_labelled s.builder w hl
  · exact fun w c hl => focalQueries_unlabelled s.builder w hl
  · intro property hl hp
    obtain ⟨q, hq⟩ := propertyValues_isSome s.builder s.walk hl hp
    exact ⟨q, hq, by simp [traffic, hq]⟩
  · intro property h
    simp [traffic, propertyValues_eq_none s.builder s.walk h]
  · exact fun action hl ht => timely_traffic s.builder s hl ht

/-- A session is opened with the labels of the walk that it finds, each action sends its own
traffic, and nothing else is ever sent. -/
theorem session_traffic_exact (store : σ) (executor : ε) (asked : List Query) (b : QueryBuilder) :
    let s := start store (Recorded.mk executor asked) b
    s.executor.asked = asked ++ labelQueries b executor (SavedWalk.load store).walk "" ∧
      ∀ actions, ExactTraffic b (s.follow actions) ∧
        (s.follow actions).executor.asked = s.executor.asked ++ trafficAlong s actions := by
  refine ⟨asked_start store _ b, fun actions => ⟨exactTraffic_of_builder ?_, ?_⟩⟩
  · have hcurrent := follow_induction (fun _ _ => upToDate_effect)
      (upToDate_start store (Recorded.mk executor asked) b) actions
    exact hcurrent.builder
  · exact asked_follow _ actions

end Session

end SchemaWalk.Stepper
