import SchemaWalk.Adjacency
import SchemaWalk.Proofs.Table.Contents

/-! # Grouped adjacency

Each record is found again in one bucket, that of its type and its filters. A bucket has the records
that belong there, in their order and as often as they come, and there is none without a record. -/

namespace SchemaWalk

variable {focusIsOrigin : Bool}

namespace AdjacencyRecord

/-- Belongs to the bucket of a type and a filter set. -/
def isUnder (typeName : String) (filters : FilterSet) (r : AdjacencyRecord) : Bool :=
  r.relationshipType = typeName ∧ r.filterSet = filters

def entry (focusIsOrigin : Bool) (r : AdjacencyRecord) : String × Nat :=
  (r.otherLabel focusIsOrigin, r.count)

end AdjacencyRecord

/-- What belongs under a type and a filter set, in the order of the records. -/
def entriesUnder (focusIsOrigin : Bool) (typeName : String) (filters : FilterSet)
    (records : List AdjacencyRecord) : List (String × Nat) :=
  (records.filter (·.isUnder typeName filters)).map (·.entry focusIsOrigin)

theorem entriesUnder_cons {typeName : String} {filters : FilterSet} (r : AdjacencyRecord)
    (records : List AdjacencyRecord) :
    entriesUnder focusIsOrigin typeName filters (r :: records) =
      if r.isUnder typeName filters then
        r.entry focusIsOrigin :: entriesUnder focusIsOrigin typeName filters records
      else entriesUnder focusIsOrigin typeName filters records := by
  rw [entriesUnder, List.filter_cons]
  split
  · rfl
  · rfl

namespace GroupedAdjacency

def bucket? (grouped : GroupedAdjacency) (typeName : String) (filters : FilterSet) :
    Option (List (String × Nat)) :=
  (grouped.get? typeName).bind (·.get? filters)

/-! ## One record -/

theorem get?_addRecord_self (grouped : GroupedAdjacency) (r : AdjacencyRecord) :
    (addRecord focusIsOrigin grouped r).get? r.relationshipType =
      some (((grouped.get? r.relationshipType).getD ∅).insert r.filterSet
        ((grouped.bucket? r.relationshipType r.filterSet).getD [] ++ [r.entry focusIsOrigin])) := by
  rw [addRecord, Table.get?_insert_self, bucket?]
  cases grouped.get? r.relationshipType with
  | none => rfl
  | some buckets => rfl

theorem get?_addRecord_of_ne (grouped : GroupedAdjacency) {r : AdjacencyRecord} {typeName : String}
    (h : typeName ≠ r.relationshipType) :
    (addRecord focusIsOrigin grouped r).get? typeName = grouped.get? typeName :=
  Table.get?_insert_of_ne grouped h _

/-- Only the bucket of the record is longer by one. -/
theorem bucket?_addRecord (grouped : GroupedAdjacency) (r : AdjacencyRecord) (typeName : String)
    (filters : FilterSet) :
    (addRecord focusIsOrigin grouped r).bucket? typeName filters =
      if r.isUnder typeName filters then
        some ((grouped.bucket? typeName filters).getD [] ++ [r.entry focusIsOrigin])
      else grouped.bucket? typeName filters := by
  by_cases htype : typeName = r.relationshipType
  · subst htype
    rw [bucket?, get?_addRecord_self, Option.bind_some]
    by_cases hfilters : filters = r.filterSet
    · subst hfilters
      have hunder : r.isUnder r.relationshipType r.filterSet = true := by
        simp [AdjacencyRecord.isUnder]
      rw [if_pos hunder, Table.get?_insert_self]
    · have hunder : r.isUnder r.relationshipType filters = false := by
        simp [AdjacencyRecord.isUnder, Ne.symm hfilters]
      rw [if_neg (by simp [hunder]), Table.get?_insert_of_ne _ hfilters, bucket?]
      cases grouped.get? r.relationshipType with
      | none => rfl
      | some buckets => rfl
  · have hunder : r.isUnder typeName filters = false := by
      simp [AdjacencyRecord.isUnder, Ne.symm htype]
    rw [if_neg (by simp [hunder]), bucket?, get?_addRecord_of_ne grouped htype, bucket?]

/-- Every type that has an entry has a bucket. -/
def Filled (grouped : GroupedAdjacency) : Prop :=
  ∀ typeName buckets, grouped.get? typeName = some buckets → ∃ filters, buckets.get? filters ≠ none

theorem filled_addRecord {grouped : GroupedAdjacency} (h : grouped.Filled) (r : AdjacencyRecord) :
    (addRecord focusIsOrigin grouped r).Filled := by
  intro typeName buckets hbuckets
  by_cases htype : typeName = r.relationshipType
  · subst htype
    rw [get?_addRecord_self] at hbuckets
    refine ⟨r.filterSet, ?_⟩
    rw [← Option.some.inj hbuckets, Table.get?_insert_self]
    exact Option.some_ne_none _
  · rw [get?_addRecord_of_ne grouped htype] at hbuckets
    exact h typeName buckets hbuckets

def bucketsSize (buckets : Table FilterSet (List (String × Nat))) : Nat :=
  (buckets.values.map List.length).sum

theorem entryCount_eq (grouped : GroupedAdjacency) :
    grouped.entryCount = (grouped.values.map bucketsSize).sum := by
  simp only [entryCount, labelCounts, List.length_flatMap, List.length_flatten]
  rfl

theorem entryCount_addRecord (grouped : GroupedAdjacency) (r : AdjacencyRecord) :
    (addRecord focusIsOrigin grouped r).entryCount = grouped.entryCount + 1 := by
  let buckets := (grouped.get? r.relationshipType).getD ∅
  let bucket := (buckets.get? r.filterSet).getD []
  let longer := bucket ++ [r.entry focusIsOrigin]
  have hadd : addRecord focusIsOrigin grouped r =
      grouped.insert r.relationshipType (buckets.insert r.filterSet longer) := rfl
  have houter := Table.sum_insert bucketsSize grouped r.relationshipType
    (buckets.insert r.filterSet longer)
  have hinner : bucketsSize (buckets.insert r.filterSet longer) + _ =
      bucketsSize buckets + longer.length :=
    Table.sum_insert List.length buckets r.filterSet longer
  have hbuckets : Table.share bucketsSize (grouped.get? r.relationshipType) = bucketsSize buckets :=
    Table.share_eq bucketsSize rfl _
  have hbucket : Table.share List.length (buckets.get? r.filterSet) = bucket.length :=
    Table.share_eq List.length rfl _
  have hlonger : longer.length = bucket.length + 1 := List.length_append
  rw [entryCount_eq, entryCount_eq, hadd]
  omega

/-! ## All records -/

theorem bucket?_foldl (records : List AdjacencyRecord) (grouped : GroupedAdjacency)
    (typeName : String) (filters : FilterSet) :
    (records.foldl (addRecord focusIsOrigin) grouped).bucket? typeName filters =
      if entriesUnder focusIsOrigin typeName filters records = [] then
        grouped.bucket? typeName filters
      else some ((grouped.bucket? typeName filters).getD [] ++
        entriesUnder focusIsOrigin typeName filters records) := by
  induction records generalizing grouped with
  | nil => rfl
  | cons r rest ih =>
    rw [List.foldl_cons, ih, bucket?_addRecord, entriesUnder_cons]
    by_cases hr : r.isUnder typeName filters = true
    · simp only [hr, if_true, Option.getD_some, List.append_assoc, List.singleton_append,
        reduceCtorEq, if_false]
      split
      · next hrest => rw [hrest]
      · rfl
    · simp only [hr, if_false, Bool.false_eq_true]

theorem filled_foldl {grouped : GroupedAdjacency} (h : grouped.Filled)
    (records : List AdjacencyRecord) :
    (records.foldl (addRecord focusIsOrigin) grouped).Filled := by
  induction records generalizing grouped with
  | nil => exact h
  | cons r rest ih => exact ih (filled_addRecord h r)

theorem entryCount_foldl (records : List AdjacencyRecord) (grouped : GroupedAdjacency) :
    (records.foldl (addRecord focusIsOrigin) grouped).entryCount =
      grouped.entryCount + records.length := by
  induction records generalizing grouped with
  | nil => rfl
  | cons r rest ih =>
    rw [List.foldl_cons, ih, entryCount_addRecord, List.length_cons]
    omega

end GroupedAdjacency

variable {records : List AdjacencyRecord} {typeName : String} {filters : FilterSet}

theorem entriesUnder_ne_nil_iff :
    entriesUnder focusIsOrigin typeName filters records ≠ [] ↔
      ∃ r ∈ records, r.relationshipType = typeName ∧ r.filterSet = filters := by
  simp [entriesUnder, AdjacencyRecord.isUnder]

theorem bucket?_groupByType_eq_some_iff {bucket : List (String × Nat)} :
    (groupByType records focusIsOrigin).bucket? typeName filters = some bucket ↔
      entriesUnder focusIsOrigin typeName filters records ≠ [] ∧
        bucket = entriesUnder focusIsOrigin typeName filters records := by
  have hnone : (∅ : GroupedAdjacency).bucket? typeName filters = none := rfl
  rw [groupByType, GroupedAdjacency.bucket?_foldl, hnone]
  by_cases h : entriesUnder focusIsOrigin typeName filters records = []
  · simp [h]
  · simp [h, eq_comm]

theorem filled_groupByType (records : List AdjacencyRecord) (focusIsOrigin : Bool) :
    (groupByType records focusIsOrigin).Filled := by
  apply GroupedAdjacency.filled_foldl
  intro typeName buckets h
  cases h

theorem entryCount_groupByType (records : List AdjacencyRecord) (focusIsOrigin : Bool) :
    (groupByType records focusIsOrigin).entryCount = records.length := by
  rw [groupByType, GroupedAdjacency.entryCount_foldl]
  exact Nat.zero_add _

/-- There is a bucket under a type and filters just when there is a record with that type and these
filters, and it has the far labels and counts of all those records. Nothing else is in a grouping.
Records in two directions make two groupings, and together these have every record. -/
theorem groupByType_keeps_all (records : List AdjacencyRecord) (focusIsOrigin : Bool) :
    (∀ typeName filters bucket,
      (groupByType records focusIsOrigin).bucket? typeName filters = some bucket ↔
        (∃ r ∈ records, r.relationshipType = typeName ∧ .ofProperties r.properties = filters) ∧
          bucket = (records.filter fun r =>
              r.relationshipType = typeName ∧ FilterSet.ofProperties r.properties = filters).map
            fun r => (if focusIsOrigin then r.endLabel else r.startLabel, r.count)) ∧
    (∀ typeName buckets, (typeName, buckets) ∈ (groupByType records focusIsOrigin).entries →
      buckets.entries ≠ [] ∧ ∀ filters bucket, (filters, bucket) ∈ buckets.entries → bucket ≠ []) ∧
    (groupByType records focusIsOrigin).entryCount = records.length ∧
    splitByDirection records =
      (records.filter fun r => r.outbound = false, records.filter fun r => r.outbound = true) ∧
    (groupByType (splitByDirection records).1 false).entryCount +
      (groupByType (splitByDirection records).2 true).entryCount = records.length := by
  refine ⟨?_, ?_, entryCount_groupByType records focusIsOrigin, ?_, ?_⟩
  · intro typeName filters bucket
    rw [bucket?_groupByType_eq_some_iff, entriesUnder_ne_nil_iff]
    rfl
  · intro typeName buckets hbuckets
    have hget := Table.get?_of_mem hbuckets
    constructor
    · obtain ⟨filters, hfilters⟩ := filled_groupByType records focusIsOrigin typeName buckets hget
      intro hnil
      exact hfilters (by rw [Table.get?, hnil]; rfl)
    · intro filters bucket hbucket
      have hfound : (groupByType records focusIsOrigin).bucket? typeName filters = some bucket := by
        rw [GroupedAdjacency.bucket?, hget, Option.bind_some, Table.get?_of_mem hbucket]
      obtain ⟨hne, rfl⟩ := bucket?_groupByType_eq_some_iff.mp hfound
      exact hne
  · simp [splitByDirection]
  · have hlength := (List.filter_append_perm (·.outbound) records).length_eq
    rw [List.length_append] at hlength
    rw [entryCount_groupByType, entryCount_groupByType, splitByDirection, Nat.add_comm]
    exact hlength

/-- Two of the records are one and the same, and one of their properties has no name. -/
def knowsRecords : List AdjacencyRecord :=
  [⟨"KNOWS", .ofList [("since", "2020")], "Person", "Person", true, 2⟩,
    ⟨"LIVES_IN", ∅, "Person", "City", true, 1⟩,
    ⟨"KNOWS", .ofList [("", "gone"), ("since", "2020")], "Robot", "Person", false, 5⟩,
    ⟨"KNOWS", .ofList [("since", "2020")], "Person", "Person", true, 2⟩]

def knowsBuckets : Table FilterSet (List (String × Nat)) :=
  .ofList [(⟨[⟨"since", .equality, "2020"⟩]⟩, [("Person", 2), ("Robot", 5), ("Person", 2)])]

theorem groupByType_keeps_all_knows :
    (groupByType knowsRecords false).bucket? "KNOWS" ⟨[⟨"since", .equality, "2020"⟩]⟩ =
      some [("Person", 2), ("Robot", 5), ("Person", 2)] ∧
    ("KNOWS", knowsBuckets) ∈ (groupByType knowsRecords false).entries ∧
    knowsBuckets.entries ≠ [] ∧
    (groupByType (splitByDirection knowsRecords).1 false).entryCount +
      (groupByType (splitByDirection knowsRecords).2 true).entryCount = 4 := by
  have hentry : ("KNOWS", knowsBuckets) ∈ (groupByType knowsRecords false).entries :=
    Table.mem_of_get? (by decide +kernel)
  obtain ⟨hbuckets, hfilled, -, -, hcount⟩ := groupByType_keeps_all knowsRecords false
  refine ⟨?_, hentry, (hfilled "KNOWS" knowsBuckets hentry).1, hcount⟩
  exact (hbuckets _ _ _).mpr ⟨⟨_, List.mem_cons_self, rfl, by decide +kernel⟩, by decide +kernel⟩

end SchemaWalk
