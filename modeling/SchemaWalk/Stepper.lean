import SchemaWalk.Adjacency
import SchemaWalk.Counts
import SchemaWalk.SavedWalk
import SchemaWalk.Executor

/-! # The stepper

A saved walk, the step being composed, and a tracker for everything that is asked about it.
Each action replaces the candidate or the walk as a whole and asks again for what depends
on it. -/

namespace SchemaWalk

structure Stepper (σ ε : Type) where
  saved : SavedWalk σ
  executor : ε
  builder : QueryBuilder
  candidate : Candidate
  nextLabels : Tracker Counts
  adjacency : Tracker (List AdjacencyRecord)
  propertyCounts : Tracker Counts
  /-- A tracker for each property asked about since the candidate changed. -/
  valueCounts : Table String (Tracker (List ValueCount))

namespace Stepper

variable {σ ε : Type}

def walk (s : Stepper σ ε) : Walk := s.saved.walk

def nextLabelsQuery (s : Stepper σ ε) : Query := s.builder.reachableLabels s.walk

def adjacencyQuery (s : Stepper σ ε) : Option Query :=
  s.builder.adjacentRelationships s.walk s.candidate

def propertyCountsQuery (s : Stepper σ ε) : Option Query :=
  s.builder.propertyKeys s.walk s.candidate

def valueCountsQuery (s : Stepper σ ε) (property : String) : Option Query :=
  s.builder.propertyValues s.walk s.candidate property

/-- The label that needs no choosing: the only one there is. -/
def onlyLabel (s : Stepper σ ε) : Option String :=
  match s.nextLabels.state.result.map Table.keys with
  | some [label] => some label
  | _ => none

def resetCandidate (s : Stepper σ ε) : Stepper σ ε :=
  { s with
    candidate := .empty
    adjacency := s.adjacency.reset
    propertyCounts := s.propertyCounts.reset
    valueCounts := ∅ }

def valueCountState (s : Stepper σ ε) (property : String) : Option (QueryState (List ValueCount)) :=
  (s.valueCounts.get? property).map (·.state)

def groupedAdjacency (s : Stepper σ ε) : GroupedAdjacency × GroupedAdjacency :=
  let (inbound, outbound) := splitByDirection (s.adjacency.state.result.getD [])
  (groupByType inbound false, groupByType outbound true)

def valueCountsTitle (label property : String) : String :=
  label ++ " prop " ++ property ++ " vals"

def queriesUsed (s : Stepper σ ε) : Table String String :=
  let entries := [(QueryKind.reachableLabels.title, s.nextLabels.state.queryText),
    (QueryKind.adjacentRelationships.title, s.adjacency.state.queryText),
    (QueryKind.propertyKeys.title, s.propertyCounts.state.queryText)] ++
    s.valueCounts.entries.map fun (property, t) =>
      (valueCountsTitle s.candidate.label property, t.state.queryText)
  .ofList (entries.filter fun e => !e.2.isEmpty)

section Asking

variable [Executor ε]

def refreshAdjacency (s : Stepper σ ε) : Stepper σ ε :=
  let run := s.adjacency.runOrReset s.executor s.adjacencyQuery decodeAdjacency
  { s with adjacency := run.tracker, executor := run.executor }

def refreshPropertyCounts (s : Stepper σ ε) : Stepper σ ε :=
  let run := s.propertyCounts.runOrReset s.executor s.propertyCountsQuery (decodeCounts "key")
  { s with propertyCounts := run.tracker, executor := run.executor }

/-- Adjacency and property counts both hang on the focal node, and value counts are only
asked for one at a time. -/
def refreshFocal (s : Stepper σ ε) : Stepper σ ε :=
  { s with valueCounts := ∅ }.refreshAdjacency.refreshPropertyCounts

def askNextLabels (s : Stepper σ ε) : Stepper σ ε :=
  let run := s.nextLabels.run s.executor s.nextLabelsQuery (decodeCounts "label")
  { s with nextLabels := run.tracker, executor := run.executor }

def setLabel (s : Stepper σ ε) (label : String) : Stepper σ ε :=
  { s with candidate := s.candidate.withLabel label }.refreshFocal

def selectOnlyLabel (s : Stepper σ ε) : Stepper σ ε :=
  match s.onlyLabel with
  | some label => if label = s.candidate.label then s else s.setLabel label
  | none => s

def refreshNextLabels (s : Stepper σ ε) : Stepper σ ε := s.askNextLabels.selectOnlyLabel

def addFilter (s : Stepper σ ε) (name value : String) : Except WalkError (Stepper σ ε) :=
  (PropertyFilter.create name value).map fun f =>
    { s with candidate := s.candidate.withFilter f }.refreshFocal

/-- An index past the end changes nothing and asks nothing. -/
def removeFilter (s : Stepper σ ε) (index : Nat) : Stepper σ ε :=
  if index < s.candidate.filters.length then
    { s with candidate := s.candidate.withoutFilter index }.refreshFocal
  else s

def askValueCounts (s : Stepper σ ε) (property : String) : Stepper σ ε :=
  let run := ((s.valueCounts.get? property).getD .fresh).runOrReset s.executor
    (s.valueCountsQuery property) decodeValueCounts
  { s with valueCounts := s.valueCounts.insert property run.tracker, executor := run.executor }

def allLabels (s : Stepper σ ε) : Except WalkError Counts × Stepper σ ε :=
  let (answer, executor) := execute s.executor s.builder.allLabels
  (answer.bind (decodeCounts "label"), { s with executor })

def allRelationshipTypes (s : Stepper σ ε) : Except WalkError Counts × Stepper σ ε :=
  let (answer, executor) := execute s.executor s.builder.allRelationshipTypes
  (answer.bind (decodeCounts "type"), { s with executor })

variable [KeyValueStore σ]

def start (store : σ) (executor : ε) (builder : QueryBuilder) : Stepper σ ε :=
  refreshNextLabels
    { saved := .load store, executor, builder, candidate := .empty, nextLabels := .fresh,
      adjacency := .fresh, propertyCounts := .fresh, valueCounts := ∅ }

def continueFrom (s : Stepper σ ε) (saved : SavedWalk σ) : Stepper σ ε :=
  { s with saved }.resetCandidate.refreshNextLabels

def composeStep (s : Stepper σ ε) (typeName : String) (filters : List PropertyFilter)
    (direction : Direction) : Except WalkError Step :=
  if !s.candidate.isReady then .error .noLabelSelected
  else do
    let origin ← s.candidate.toNodePick
    let relationship ← RelationshipPick.create typeName filters
    return ⟨origin, relationship, direction⟩

def pickRelationship (s : Stepper σ ε) (typeName : String) (filters : List PropertyFilter)
    (direction : Direction) : Except WalkError (Stepper σ ε) :=
  (s.composeStep typeName filters direction).map fun step => s.continueFrom (s.saved.append step)

def pickGroup (s : Stepper σ ε) (typeName : String) (filters : FilterSet) (direction : Direction) :
    Except WalkError (Stepper σ ε) := s.pickRelationship typeName filters.filters direction

def deleteStep (s : Stepper σ ε) (index : Nat) : Stepper σ ε :=
  if index < s.walk.length then s.continueFrom (s.saved.truncate index) else s

def clearWalk (s : Stepper σ ε) : Stepper σ ε := s.continueFrom s.saved.clear

end Asking

/-! ## What the parts of an action leave alone -/

section Parts

@[simp] theorem saved_resetCandidate (s : Stepper σ ε) : s.resetCandidate.saved = s.saved := rfl

variable [Executor ε]

@[simp] theorem saved_refreshFocal (s : Stepper σ ε) : s.refreshFocal.saved = s.saved := rfl

@[simp] theorem candidate_refreshFocal (s : Stepper σ ε) :
    s.refreshFocal.candidate = s.candidate := rfl

@[simp] theorem nextLabels_refreshFocal (s : Stepper σ ε) :
    s.refreshFocal.nextLabels = s.nextLabels := rfl

@[simp] theorem valueCounts_refreshFocal (s : Stepper σ ε) : s.refreshFocal.valueCounts = ∅ := rfl

@[simp] theorem saved_askNextLabels (s : Stepper σ ε) : s.askNextLabels.saved = s.saved := rfl

@[simp] theorem candidate_askNextLabels (s : Stepper σ ε) :
    s.askNextLabels.candidate = s.candidate := rfl

@[simp] theorem saved_askValueCounts (s : Stepper σ ε) (property : String) :
    (s.askValueCounts property).saved = s.saved := rfl

@[simp] theorem candidate_askValueCounts (s : Stepper σ ε) (property : String) :
    (s.askValueCounts property).candidate = s.candidate := rfl

theorem selectOnlyLabel_of_none {s : Stepper σ ε} (h : s.onlyLabel = none) :
    s.selectOnlyLabel = s := by
  simp [selectOnlyLabel, h]

theorem selectOnlyLabel_of_selected {s : Stepper σ ε} {label : String}
    (h : s.onlyLabel = some label) (hsame : label = s.candidate.label) : s.selectOnlyLabel = s := by
  simp [selectOnlyLabel, h, hsame]

theorem selectOnlyLabel_of_some {s : Stepper σ ε} {label : String} (h : s.onlyLabel = some label)
    (hne : label ≠ s.candidate.label) : s.selectOnlyLabel = s.setLabel label := by
  simp [selectOnlyLabel, h, hne]

@[simp] theorem saved_selectOnlyLabel (s : Stepper σ ε) : s.selectOnlyLabel.saved = s.saved := by
  unfold selectOnlyLabel
  split
  · split <;> rfl
  · rfl

@[simp] theorem saved_refreshNextLabels (s : Stepper σ ε) :
    s.refreshNextLabels.saved = s.saved := by
  simp [refreshNextLabels]

@[simp] theorem saved_continueFrom (s : Stepper σ ε) (saved : SavedWalk σ) :
    (s.continueFrom saved).saved = saved := by
  simp [continueFrom]

end Parts

end Stepper

end SchemaWalk
