import SchemaWalk.Proofs.Adjacency.Decoding
import SchemaWalk.Proofs.Adjacency.Grouping
import SchemaWalk.Proofs.Filter.Keys
import SchemaWalk.Proofs.Stepper.Refusal

/-! # From a row to a hop

A row of the adjacency is decoded, put in one half by its direction, grouped by its type and its
filters, and picked by these. The hop that is committed then says what the row says. -/

namespace SchemaWalk

variable {σ ε : Type} {records : List AdjacencyRecord} {r : AdjacencyRecord}

theorem FilterSet.named_ofProperties (props : Properties) :
    NamedFilters (ofProperties props).filters :=
  fun _ hf => (mem_ofProperties.mp hf).1

/-! ## The halves of the adjacency -/

/-- The part for a direction, where the inbound part comes first. -/
def Direction.half {α : Type} (parts : α × α) : Direction → α
  | .inbound => parts.1
  | .outbound => parts.2

/-- Seen from the focal node. -/
def AdjacencyRecord.direction (r : AdjacencyRecord) : Direction :=
  if r.outbound then .outbound else .inbound

theorem mem_half_iff {direction : Direction} :
    r ∈ direction.half (splitByDirection records) ↔ r ∈ records ∧ r.direction = direction := by
  cases direction with
  | inbound => simp [Direction.half, splitByDirection, AdjacencyRecord.direction]
  | outbound => simp [Direction.half, splitByDirection, AdjacencyRecord.direction]

theorem exists_bucket_of_mem (h : r ∈ records) (focusIsOrigin : Bool) :
    ∃ bucket, (groupByType records focusIsOrigin).bucket? r.relationshipType r.filterSet =
        some bucket ∧ r.entry focusIsOrigin ∈ bucket := by
  have hentry : r.entry focusIsOrigin ∈
      entriesUnder focusIsOrigin r.relationshipType r.filterSet records := by
    apply List.mem_map_of_mem
    exact List.mem_filter.mpr ⟨h, by simp [AdjacencyRecord.isUnder]⟩
  exact ⟨_, bucket?_groupByType_eq_some_iff.mpr ⟨List.ne_nil_of_mem hentry, rfl⟩, hentry⟩

namespace Stepper

variable {s : Stepper σ ε}

theorem half_groupedAdjacency (h : s.adjacency.state.result = some records)
    (direction : Direction) :
    direction.half s.groupedAdjacency =
      groupByType (direction.half (splitByDirection records)) (direction = .outbound) := by
  rw [groupedAdjacency, h]
  cases direction with
  | inbound => rfl
  | outbound => rfl

/-- The bucket that a record is shown in. -/
theorem exists_bucket_groupedAdjacency (h : s.adjacency.state.result = some records)
    (hr : r ∈ records) :
    ∃ bucket, (r.direction.half s.groupedAdjacency).bucket? r.relationshipType r.filterSet =
        some bucket ∧ r.entry r.outbound ∈ bucket := by
  have hfocus : decide (r.direction = .outbound) = r.outbound := by
    cases hout : r.outbound with
    | false => simp [AdjacencyRecord.direction, hout]
    | true => simp [AdjacencyRecord.direction, hout]
  rw [half_groupedAdjacency h, hfocus]
  exact exists_bucket_of_mem (mem_half_iff.mpr ⟨hr, rfl⟩) r.outbound

/-! ## The hop -/

variable [Executor ε] [KeyValueStore σ]

/-- Where a row is found again, and the hop that is made of it. -/
structure BecomesHop (s : Stepper σ ε) (records : List AdjacencyRecord) (row : Row)
    (r : AdjacencyRecord) : Prop where
  record : row.Records r
  outboundHalf : r ∈ (splitByDirection records).2 ↔ row.get? "out" = some (.bool true)
  inboundHalf : r ∈ (splitByDirection records).1 ↔ row.get? "out" = some (.bool false)
  bucket : ∃ bucket, (r.direction.half s.groupedAdjacency).bucket? r.relationshipType
      (.ofProperties r.properties) = some bucket ∧
    (if r.outbound then r.endLabel else r.startLabel, r.count) ∈ bucket
  /-- One filter for each property that has a name. -/
  filters : ∃ members, row.get? "props" = some (.object members) ∧
    ∀ f, f ∈ (FilterSet.ofProperties r.properties).filters ↔ f.name ≠ "" ∧
      f.operator = .equality ∧ (Json.member? members f.name).map Json.toText = some f.value
  increasing : (FilterSet.ofProperties r.properties).filters.Pairwise fun f g => f.name < g.name
  committed : ∃ s',
    s.pickGroup r.relationshipType (.ofProperties r.properties) r.direction = .ok s' ∧
      s'.walk.steps = s.walk.steps ++ [⟨⟨s.candidate.label, s.candidate.filters⟩,
        ⟨r.relationshipType, (FilterSet.ofProperties r.properties).filters⟩, r.direction⟩]

theorem becomesHop_of_mem {row : Row} (hnamed : NamedCandidate s)
    (hready : s.candidate.label ≠ "") (hresult : s.adjacency.state.result = some records)
    (hr : r ∈ records) (hrecord : row.Records r) (htype : r.relationshipType ≠ "") :
    BecomesHop s records row r := by
  obtain ⟨members, hmembers, hproperties⟩ := hrecord.properties
  constructor
  · exact hrecord
  · rw [hrecord.outbound]
    simp [splitByDirection, hr]
  · rw [hrecord.outbound]
    simp [splitByDirection, hr]
  · exact exists_bucket_groupedAdjacency hresult hr
  · refine ⟨members, hmembers, ?_⟩
    intro f
    rw [FilterSet.mem_ofProperties, hproperties]
  · exact FilterSet.increasing_ofProperties r.properties
  · have hfilters := FilterSet.named_ofProperties r.properties
    refine ⟨_, pickRelationship_of_named hnamed hready htype hfilters r.direction, ?_⟩
    rw [walk, saved_continueFrom]
    rfl

/-- Every accepted row of a type becomes a hop in the session that asked for it. -/
theorem row_becomes_hop (store : σ) (executor : ε) (builder : QueryBuilder)
    (actions : List Action) (hs : s = (start store executor builder).follow actions)
    {rows : List Row} (hrows : decodeAdjacency rows = .ok records)
    (hresult : s.adjacency.state.result = some records) (hready : s.candidate.label ≠ "")
    {i : Nat} {row : Row} (hrow : rows[i]? = some row)
    (htype : row.get? "type" ≠ some (.string "")) :
    ∃ r, records[i]? = some r ∧ BecomesHop s records row r := by
  have hnamed : NamedCandidate s := hs ▸ named_follow store executor builder actions
  have hdecoded := decodeFrom_eq_ok_iff.mp hrows
  obtain ⟨hi, hget⟩ := List.getElem?_eq_some_iff.mp hrow
  have hlt : i < records.length := hdecoded.length_eq ▸ hi
  have hrecord : row.Records records[i] := by
    rw [← decodeRecord_eq_ok_iff, ← hget]
    exact hdecoded.get hi hlt
  refine ⟨records[i], List.getElem?_eq_getElem hlt, ?_⟩
  apply becomesHop_of_mem hnamed hready hresult (List.getElem_mem hlt) hrecord
  intro hempty
  rw [hrecord.relationshipType, hempty] at htype
  exact htype rfl

theorem year_inRange :
    -9223372036854775808 ≤ (2020 : Int) ∧ (2020 : Int) < 18446744073709551616 := by decide

theorem visits_inRange :
    -9223372036854775808 ≤ (2 : Int) ∧ (2 : Int) < 18446744073709551616 := by decide

/-- One of its properties has no name, and they do not come in the order of their names. -/
def visitedRow : Row := .ofList [("type", .string "VISITED"),
  ("props", .object [("year", .number (.integer 2020 year_inRange)), ("", .null),
    ("guide", .bool true)]),
  ("out", .bool false), ("startLabel", .string "City"), ("endLabel", .string "Person"),
  ("count", .number (.integer 2 visits_inRange))]

def visitedRecord : AdjacencyRecord :=
  ⟨"VISITED", .ofList [("", "null"), ("guide", "true"), ("year", "2020")], "City", "Person", false,
    2⟩

def visitSession : Stepper Memory FixedReply :=
  (start .empty (FixedReply.mk (.rows [visitedRow])) default).follow
    [.setLabel "Person", .addFilter "name" "Ada"]

theorem row_becomes_hop_visited :
    decodeAdjacency [visitedRow] = .ok [visitedRecord] ∧
    visitSession.adjacency.state.result = some [visitedRecord] ∧
    visitSession.candidate.label ≠ "" ∧ visitedRow.get? "type" ≠ some (.string "") ∧
    ∃ s', visitSession.pickGroup "VISITED"
        ⟨[⟨"guide", .equality, "true"⟩, ⟨"year", .equality, "2020"⟩]⟩ .inbound = .ok s' ∧
      s'.walk.steps = [⟨⟨"Person", [⟨"name", .equality, "Ada"⟩]⟩,
        ⟨"VISITED", [⟨"guide", .equality, "true"⟩, ⟨"year", .equality, "2020"⟩]⟩, .inbound⟩] := by
  have hrows : decodeAdjacency [visitedRow] = .ok [visitedRecord] := by decide +kernel
  have hresult : visitSession.adjacency.state.result = some [visitedRecord] := by decide +kernel
  have hready : visitSession.candidate.label ≠ "" := by decide +kernel
  have htype : visitedRow.get? "type" ≠ some (.string "") := by
    have hname : visitedRow.get? "type" = some (.string "VISITED") := rfl
    simp [hname]
  obtain ⟨r, hr, hhop⟩ := row_becomes_hop Memory.empty (FixedReply.mk (.rows [visitedRow])) default
    [.setLabel "Person", .addFilter "name" "Ada"] rfl hrows hresult hready (i := 0) rfl htype
  obtain rfl : visitedRecord = r := Option.some.inj hr
  exact ⟨hrows, hresult, hready, htype, hhop.committed⟩

end Stepper

end SchemaWalk
