import SchemaWalk.Error
import SchemaWalk.Json.Printer
import SchemaWalk.Table

/-! # Result rows

A row has one value per name of the query's `RETURN` clause. What a query answers is
decoded row by row; the first row that does not fit fails the whole answer. -/

namespace SchemaWalk

abbrev Row := Table String Json

/-- A property value as the filters keep it: strings raw, everything else as JSON. -/
def Json.toText : Json → String
  | .string value => value
  | other => other.render

inductive RowFault where
  | missing (name : String)
  | notString (name : String) (found : Json)
  | notCount (name : String) (found : Json)
  | notMap (found : Json)
  | notBoolean (name : String) (found : Json)

def RowFault.reason : RowFault → String
  | missing name => "missing field '" ++ name ++ "'"
  | notString name found => "field '" ++ name ++ "' is not a string: " ++ found.render
  | notCount name found => "field '" ++ name ++ "' is not a count: " ++ found.render
  | notMap found => "props is not a map: " ++ found.render
  | notBoolean name found => "field '" ++ name ++ "' is not a boolean: " ++ found.render

namespace Row

def field (row : Row) (name : String) : Except RowFault Json :=
  match row.get? name with
  | some value => .ok value
  | none => .error (.missing name)

def string (row : Row) (name : String) : Except RowFault String := do
  match ← row.field name with
  | .string value => return value
  | other => throw (.notString name other)

def count (row : Row) (name : String) : Except RowFault Nat := do
  let value ← row.field name
  match value.toNat? with
  | some n => return n
  | none => throw (.notCount name value)

def boolean (row : Row) (name : String) : Except RowFault Bool := do
  match ← row.field name with
  | .bool value => return value
  | other => throw (.notBoolean name other)

def properties (row : Row) : Except RowFault (Table String String) := do
  match ← row.field "props" with
  | .object members => return .ofList (members.map fun m => (m.1, m.2.toText))
  | other => throw (.notMap other)

end Row

def decodeFrom {α : Type} (decode : Row → Except RowFault α) (index : Nat) :
    List Row → Except WalkError (List α)
  | [] => .ok []
  | row :: rest =>
    match decode row with
    | .error fault => .error (.decode index fault.reason)
    | .ok x =>
      match decodeFrom decode (index + 1) rest with
      | .error e => .error e
      | .ok xs => .ok (x :: xs)

def decodeRows {α : Type} (decode : Row → Except RowFault α) (rows : List Row) :
    Except WalkError (List α) := decodeFrom decode 0 rows

end SchemaWalk
