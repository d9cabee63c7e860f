import SchemaWalk.Adjacency
import SchemaWalk.Proofs.Row.Checks

/-! # Decoded adjacency

Either every row becomes a record or none does. A record says what its row says, and an error is
about the first row that has not the shape of a record. -/

namespace SchemaWalk

/-- In the order in which they are made, which is not the order of the fields of a record. -/
def adjacencyChecks : List FieldCheck :=
  [.properties, .boolean "out", .string "type", .string "startLabel", .string "endLabel",
    .count "count"]

structure Row.Fits (row : Row) : Prop where
  properties : ∃ members, row.get? "props" = some (.object members)
  outbound : ∃ b, row.get? "out" = some (.bool b)
  relationshipType : ∃ s, row.get? "type" = some (.string s)
  startLabel : ∃ s, row.get? "startLabel" = some (.string s)
  endLabel : ∃ s, row.get? "endLabel" = some (.string s)
  count : ∃ (n : Nat) (h : _), row.get? "count" = some (.number (.integer n h))

/-- Every field of the record is that of the row, the properties as texts under the same names. -/
structure Row.Records (row : Row) (r : AdjacencyRecord) : Prop where
  properties : ∃ members, row.get? "props" = some (.object members) ∧
    ∀ key, r.properties.get? key = (Json.member? members key).map Json.toText
  outbound : row.get? "out" = some (.bool r.outbound)
  relationshipType : row.get? "type" = some (.string r.relationshipType)
  startLabel : row.get? "startLabel" = some (.string r.startLabel)
  endLabel : row.get? "endLabel" = some (.string r.endLabel)
  count : ∃ h, row.get? "count" = some (.number (.integer r.count h))

theorem obeys_decodeRecord : Obeys adjacencyChecks decodeRecord :=
  Row.obeys_properties.bind fun _ =>
    (Row.obeys_boolean "out").bind fun _ =>
      (Row.obeys_string "type").bind fun _ =>
        (Row.obeys_string "startLabel").bind fun _ =>
          (Row.obeys_string "endLabel").bind fun _ =>
            (Row.obeys_count "count").bind fun _ => obeys_pure _

theorem decodeRecord_eq_ok_iff {row : Row} {r : AdjacencyRecord} :
    decodeRecord row = .ok r ↔ row.Records r := by
  unfold decodeRecord
  simp only [bind_eq_ok_iff, Row.properties_eq_ok_iff, Row.boolean_eq_ok_iff, Row.string_eq_ok_iff,
    Row.count_eq_ok_iff]
  constructor
  · rintro ⟨props, hprops, outbound, hout, typeName, htype, startLabel, hstart, endLabel, hend,
      count, hcount, hr⟩
    cases hr
    exact ⟨hprops, hout, htype, hstart, hend, hcount⟩
  · intro h
    exact ⟨_, h.properties, _, h.outbound, _, h.relationshipType, _, h.startLabel, _, h.endLabel, _,
      h.count, rfl⟩

theorem Row.fits_iff {row : Row} : row.Fits ↔ ∃ r, row.Records r := by
  constructor
  · rintro ⟨⟨members, hprops⟩, ⟨outbound, hout⟩, ⟨typeName, htype⟩, ⟨startLabel, hstart⟩,
      ⟨endLabel, hend⟩, ⟨count, hcount⟩⟩
    exact ⟨⟨typeName, _, startLabel, endLabel, outbound, count⟩,
      ⟨members, hprops, get?_texts members⟩, hout, htype, hstart, hend, hcount⟩
  · rintro ⟨r, ⟨members, hprops, -⟩, hout, htype, hstart, hend, hcount⟩
    exact ⟨⟨members, hprops⟩, ⟨_, hout⟩, ⟨_, htype⟩, ⟨_, hstart⟩, ⟨_, hend⟩, ⟨_, hcount⟩⟩

theorem Row.fits_iff_firstReason {row : Row} :
    row.Fits ↔ firstReason adjacencyChecks row = none := by
  rw [fits_iff, ← obeys_decodeRecord.exists_ok_iff]
  simp only [decodeRecord_eq_ok_iff]

/-- All rows are decoded, each to a record of its own in the order of the rows, or none is. What is
reported then is the first row that does not fit and its first complaint, whatever the rows behind
it are. -/
theorem decodeAdjacency_all_or_nothing (rows : List Row) :
    (∀ records, decodeAdjacency rows = .ok records ↔ List.Forall₂ Row.Records rows records) ∧
    ((∃ records, decodeAdjacency rows = .ok records) ↔ ∀ row ∈ rows, row.Fits) ∧
    (∀ e, decodeAdjacency rows = .error e ↔
      ∃ before row later reason, rows = before ++ row :: later ∧
        (∀ earlier ∈ before, Row.Fits earlier) ∧ firstReason adjacencyChecks row = some reason ∧
        e = .decode before.length reason) ∧
    ∀ before row later other, (∀ earlier ∈ before, Row.Fits earlier) → ¬ row.Fits →
      decodeAdjacency (before ++ row :: later) = decodeAdjacency (before ++ row :: other) := by
  simp only [Row.fits_iff_firstReason]
  refine ⟨?_, obeys_decodeRecord.exists_decodeRows_iff,
    fun e => obeys_decodeRecord.decodeRows_eq_error_iff, ?_⟩
  · intro records
    refine decodeFrom_eq_ok_iff.trans ?_
    simp only [decodeRecord_eq_ok_iff]
  · intro before row later other hbefore hrow
    obtain ⟨reason, hreason⟩ := Option.ne_none_iff_exists'.mp hrow
    rw [decodeAdjacency, decodeAdjacency, obeys_decodeRecord.decodeRows_eq_error hbefore hreason,
      obeys_decodeRecord.decodeRows_eq_error hbefore hreason]

def knowsRow : Row := .ofList [("type", .string "KNOWS"),
  ("props", .object [("since", .number (.integer 2020 (by decide)))]), ("out", .bool true),
  ("startLabel", .string "Person"), ("endLabel", .string "City"),
  ("count", .number (.integer 3 (by decide)))]

/-- Its type is missing too, but its direction is looked at before. -/
def strayRow : Row := .ofList [("props", .object []), ("out", .string "yes")]

theorem fits_knowsRow : knowsRow.Fits where
  properties := ⟨_, rfl⟩
  outbound := ⟨true, rfl⟩
  relationshipType := ⟨"KNOWS", rfl⟩
  startLabel := ⟨"Person", rfl⟩
  endLabel := ⟨"City", rfl⟩
  count := ⟨3, by decide, rfl⟩

/-- A row without any field stands behind the stray one in the first list and not in the second. -/
theorem decodeAdjacency_all_or_nothing_stray :
    (∀ earlier ∈ [knowsRow], Row.Fits earlier) ∧ ¬ strayRow.Fits ∧
    decodeAdjacency [knowsRow, strayRow, ∅] =
      .error (.decode 1 "field 'out' is not a boolean: \"yes\"") ∧
    decodeAdjacency [knowsRow, strayRow, ∅] = decodeAdjacency [knowsRow, strayRow] := by
  have hknows : ∀ earlier ∈ [knowsRow], Row.Fits earlier := by
    intro earlier hearlier
    rw [List.mem_singleton.mp hearlier]
    exact fits_knowsRow
  have hreason : firstReason adjacencyChecks strayRow =
      some "field 'out' is not a boolean: \"yes\"" := by
    decide +kernel
  have hstray : ¬ strayRow.Fits := by
    rw [Row.fits_iff_firstReason, hreason]
    exact Option.some_ne_none _
  obtain ⟨-, -, herror, hlater⟩ := decodeAdjacency_all_or_nothing [knowsRow, strayRow, ∅]
  refine ⟨hknows, hstray, ?_, hlater [knowsRow] strayRow [∅] [] hknows hstray⟩
  exact (herror _).mpr ⟨[knowsRow], strayRow, [∅], _, rfl, hknows, hreason, rfl⟩

end SchemaWalk
