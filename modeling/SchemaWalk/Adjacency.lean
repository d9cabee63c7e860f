import SchemaWalk.Filter
import SchemaWalk.Row

/-! # Adjacency

The relationships of the focal node, as the database answers them and as they are grouped
for picking: by type, then by the filters their properties ask for. -/

namespace SchemaWalk

structure AdjacencyRecord where
  relationshipType : String
  properties : Properties
  startLabel : String
  endLabel : String
  /-- The focal node is where the relationship starts. -/
  outbound : Bool
  count : Nat
  deriving DecidableEq

def decodeRecord (row : Row) : Except RowFault AdjacencyRecord := do
  let properties ← row.properties
  let outbound ← row.boolean "out"
  let relationshipType ← row.string "type"
  let startLabel ← row.string "startLabel"
  let endLabel ← row.string "endLabel"
  let count ← row.count "count"
  return ⟨relationshipType, properties, startLabel, endLabel, outbound, count⟩

def decodeAdjacency (rows : List Row) : Except WalkError (List AdjacencyRecord) :=
  decodeRows decodeRecord rows

def splitByDirection (records : List AdjacencyRecord) :
    List AdjacencyRecord × List AdjacencyRecord :=
  (records.filter (fun r => !r.outbound), records.filter (fun r => r.outbound))

abbrev GroupedAdjacency := Table String (Table FilterSet (List (String × Nat)))

namespace AdjacencyRecord

def filterSet (r : AdjacencyRecord) : FilterSet := .ofProperties r.properties

def otherLabel (r : AdjacencyRecord) (focusIsOrigin : Bool) : String :=
  if focusIsOrigin then r.endLabel else r.startLabel

end AdjacencyRecord

/-- Adds an entry at the end of its bucket. Records are never merged. -/
def addRecord (focusIsOrigin : Bool) (grouped : GroupedAdjacency) (r : AdjacencyRecord) :
    GroupedAdjacency :=
  let buckets := (grouped.get? r.relationshipType).getD ∅
  let bucket := (buckets.get? r.filterSet).getD []
  grouped.insert r.relationshipType
    (buckets.insert r.filterSet (bucket ++ [(r.otherLabel focusIsOrigin, r.count)]))

def groupByType (records : List AdjacencyRecord) (focusIsOrigin : Bool) : GroupedAdjacency :=
  records.foldl (addRecord focusIsOrigin) ∅

def GroupedAdjacency.labelCounts (grouped : GroupedAdjacency) : List (String × Nat) :=
  grouped.values.flatMap fun buckets => buckets.values.flatten

def GroupedAdjacency.entryCount (grouped : GroupedAdjacency) : Nat := grouped.labelCounts.length

end SchemaWalk
