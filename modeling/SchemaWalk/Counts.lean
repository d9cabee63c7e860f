import SchemaWalk.Row

/-! # Counts

How often each label, key, type or value occurs. -/

namespace SchemaWalk

abbrev Counts := Table String Nat

/-- One value of a property and how many nodes carry it. No value stands for nodes where
the property is null or missing. -/
structure ValueCount where
  value : Option String
  count : Nat
  deriving DecidableEq, Repr

def decodeKeyCount (key : String) (row : Row) : Except RowFault (String × Nat) := do
  let name ← row.string key
  let count ← row.count "count"
  return (name, count)

def decodeCounts (key : String) (rows : List Row) : Except WalkError Counts :=
  (decodeRows (decodeKeyCount key) rows).map .ofList

def decodeValueCount (row : Row) : Except RowFault ValueCount := do
  let value := match row.get? "val" with
    | none | some .null => none
    | some other => some other.toText
  let count ← row.count "count"
  return ⟨value, count⟩

/-- Most frequent first; equal counts keep the order of the rows. -/
def sortValueCounts (values : List ValueCount) : List ValueCount :=
  values.mergeSort fun a b => b.count ≤ a.count

def decodeValueCounts (rows : List Row) : Except WalkError (List ValueCount) :=
  (decodeRows decodeValueCount rows).map sortValueCounts

def frequencyLE (a b : String × Nat) : Bool :=
  b.2 < a.2 || (a.2 == b.2 && (compare a.1 b.1).isLE)

def Counts.byFrequency (counts : Counts) : List (String × Nat) :=
  counts.entries.mergeSort frequencyLE

/-- Meant to say whether every node that carries the property has a value of its own. The entry of
the nodes without the property counts as a value too. -/
def isAllUnique (values : List ValueCount) (nodesWithProperty : Nat) : Bool :=
  values.length == nodesWithProperty

end SchemaWalk
