import SchemaWalk.Ron.Reader
import SchemaWalk.Walk

/-! # Snapshots

A walk as text. Writing always names every field; reading takes fields in any order, skips
fields it does not know, fills in filters and operators that are missing, and checks the
walk only once all of it has been read. -/

namespace SchemaWalk

/-! ## Writing -/

def Operator.toRon : Operator → RonValue
  | .equality => .unit "Equality"

def PropertyFilter.toRon (f : PropertyFilter) : RonValue :=
  .record none
    [("name", .string f.name), ("operator", f.operator.toRon), ("value", .string f.value)]

def Direction.toRon : Direction → RonValue
  | .inbound => .unit "inbound"
  | .outbound => .unit "outbound"

def RelationshipPick.toRon (r : RelationshipPick) : RonValue :=
  .record none
    [("type_name", .string r.typeName), ("properties", .list (r.filters.map PropertyFilter.toRon))]

def NodePick.toRon (n : NodePick) : RonValue :=
  .record none
    [("label", .string n.label), ("properties", .list (n.filters.map PropertyFilter.toRon))]

def Step.toRon (s : Step) : RonValue :=
  .record none
    [("relationship", s.relationship.toRon), ("direction", s.direction.toRon),
      ("origin_node", s.origin.toRon)]

def Walk.toRon (w : Walk) : RonValue := .list (w.steps.map Step.toRon)

def Walk.snapshot (w : Walk) : String := String.ofList (w.toRon.render 0)

/-! ## Reading -/

namespace Ron

/-- The fields of a record. Its name must be the expected one; it may be missing unless
names are asked for. -/
def fieldsOf (a : Attributes) (expected : String) : RonValue → Option (List (String × RonValue))
  | .record (some name) fields => if name = expected then some fields else none
  | .record none fields => if a.has .explicitStructNames then none else some fields
  | _ => none

def optionalField (fields : List (String × RonValue)) (key : String) : Option (Option RonValue) :=
  match fields.filter (fun f => f.1 == key) with
  | [] => some none
  | [f] => some (some f.2)
  | _ => none

def requiredField (fields : List (String × RonValue)) (key : String) : Option RonValue :=
  (optionalField fields key).bind id

def stringOf : RonValue → Option String
  | .string content => some content
  | _ => none

def listOf {α : Type} (read : RonValue → Option α) : RonValue → Option (List α)
  | .list items => items.mapM read
  | _ => none

end Ron

open Ron

def Operator.ofRon? : RonValue → Option Operator
  | .unit name => if name = "Equality" then some .equality else none
  | _ => none

def PropertyFilter.ofRon? (a : Attributes) (x : RonValue) : Option PropertyFilter := do
  let fields ← fieldsOf a "PropertySelection" x
  let name ← stringOf (← requiredField fields "name")
  let operator ← match ← optionalField fields "operator" with
    | some x => Operator.ofRon? x
    | none => some .equality
  let value ← stringOf (← requiredField fields "value")
  return ⟨name, operator, value⟩

def Direction.ofRon? : RonValue → Option Direction
  | .unit name =>
    if name = "inbound" then some .inbound
    else if name = "outbound" then some .outbound
    else none
  | _ => none

def filtersOfFields (a : Attributes) (fields : List (String × RonValue)) :
    Option (List PropertyFilter) := do
  match ← optionalField fields "properties" with
  | some x => listOf (PropertyFilter.ofRon? a) x
  | none => return []

def RelationshipPick.ofRon? (a : Attributes) (x : RonValue) : Option RelationshipPick := do
  let fields ← fieldsOf a "RelationshipPick" x
  let typeName ← stringOf (← requiredField fields "type_name")
  return ⟨typeName, ← filtersOfFields a fields⟩

def NodePick.ofRon? (a : Attributes) (x : RonValue) : Option NodePick := do
  let fields ← fieldsOf a "NodePick" x
  let label ← stringOf (← requiredField fields "label")
  return ⟨label, ← filtersOfFields a fields⟩

def Step.ofRon? (a : Attributes) (x : RonValue) : Option Step := do
  let fields ← fieldsOf a "Step" x
  let relationship ← RelationshipPick.ofRon? a (← requiredField fields "relationship")
  let direction ← Direction.ofRon? (← requiredField fields "direction")
  let origin ← NodePick.ofRon? a (← requiredField fields "origin_node")
  return ⟨origin, relationship, direction⟩

/-- The steps as they are written, whatever rules they break. -/
def Walk.ofRon? (a : Attributes) (x : RonValue) : Option Walk :=
  (listOf (Step.ofRon? a) x).map Walk.mk

def Walk.read? (text : String) : Option Walk :=
  (document text.toList).bind fun (a, x) => Walk.ofRon? a x

def parseSnapshot (text : String) : Except WalkError Walk :=
  match Walk.read? text with
  | none => .error (.restore "malformed snapshot")
  | some w =>
    match w.validate with
    | .ok () => .ok w
    | .error e => .error (.restore e.message)

end SchemaWalk
