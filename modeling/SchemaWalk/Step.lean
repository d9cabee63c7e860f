import SchemaWalk.Filter

/-! # Steps

A step is one committed hop: the node it starts from, the relationship it follows, and
which way it follows it. -/

namespace SchemaWalk

structure NodePick where
  label : String
  filters : List PropertyFilter
  deriving DecidableEq, Repr

structure RelationshipPick where
  typeName : String
  filters : List PropertyFilter
  deriving DecidableEq, Repr

inductive Direction where
  | inbound
  | outbound
  deriving DecidableEq, Repr

structure Step where
  origin : NodePick
  relationship : RelationshipPick
  direction : Direction
  deriving DecidableEq, Repr

def NodePick.validate (n : NodePick) : Except WalkError Unit :=
  if n.label.isEmpty then .error .emptyNodeLabel else validateFilters n.filters

def NodePick.create (label : String) (filters : List PropertyFilter) :
    Except WalkError NodePick :=
  (NodePick.validate ⟨label, filters⟩).map (fun _ => ⟨label, filters⟩)

def RelationshipPick.validate (r : RelationshipPick) : Except WalkError Unit :=
  if r.typeName.isEmpty then .error .emptyRelationshipType else validateFilters r.filters

def RelationshipPick.create (typeName : String) (filters : List PropertyFilter) :
    Except WalkError RelationshipPick :=
  (RelationshipPick.validate ⟨typeName, filters⟩).map (fun _ => ⟨typeName, filters⟩)

namespace Step

def validate (s : Step) : Except WalkError Unit :=
  match s.origin.validate with
  | .ok () => s.relationship.validate
  | .error e => .error e

def renderBraced (fs : List PropertyFilter) : String :=
  if fs.isEmpty then "" else " \x7b" ++ renderFilters fs ++ "\x7d"

/-- One line for a reader, the arrow on the side the hop goes to. -/
def render (s : Step) : String :=
  "(" ++ s.origin.label ++ renderBraced s.origin.filters ++ ")" ++
    (if s.direction = .inbound then "<" else "") ++
    "-[" ++ s.relationship.typeName ++ renderBraced s.relationship.filters ++ "]-" ++
    (if s.direction = .inbound then "" else ">")

end Step

end SchemaWalk
