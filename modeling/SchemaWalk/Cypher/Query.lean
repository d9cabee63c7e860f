import SchemaWalk.Candidate
import SchemaWalk.Cypher.Literal
import SchemaWalk.Walk

/-! # Patterns and queries

A walk is compiled to the opening of a `MATCH` clause: for each step its origin node and
its relationship, the arrow on the side the step goes to. The text ends with an open
relationship, ready for the node the walk arrives at.

The read queries of the stepper go on from there. Those about the focal node need a candidate
with a label; without one there is nothing to ask. -/

namespace SchemaWalk

open Cypher

def PropertyFilter.pattern (f : PropertyFilter) : String :=
  f.name ++ ": " ++ (Literal.encode f.value).render

def filterPattern (fs : List PropertyFilter) : String :=
  if fs.isEmpty then ""
  else "\x7b" ++ ", ".intercalate (fs.map PropertyFilter.pattern) ++ "\x7d"

def nodePattern (variableName label : String) (fs : List PropertyFilter) : String :=
  "(" ++ variableName ++ ":" ++ quoteName label ++ filterPattern fs ++ ")"

def Step.pattern (s : Step) : String :=
  nodePattern "" s.origin.label s.origin.filters ++
    (if s.direction = .inbound then "<" else "") ++
    "-[:" ++ s.relationship.typeName ++ filterPattern s.relationship.filters ++ "]-" ++
    (if s.direction = .outbound then ">" else "")

def Walk.pattern (w : Walk) : String := w.steps.foldl (fun text s => text ++ s.pattern) "MATCH "

theorem Walk.pattern_empty : Walk.empty.pattern = "MATCH " := rfl

theorem Walk.pattern_append (w : Walk) (s : Step) :
    (w.append s).pattern = w.pattern ++ s.pattern := by
  simp [Walk.pattern, Walk.append, List.foldl_append]

/-! ## Queries -/

inductive QueryKind where
  | adjacentRelationships
  | propertyKeys
  | propertyValues
  | reachableLabels
  | allLabels
  | allRelationshipTypes
  deriving DecidableEq, Repr

def QueryKind.title : QueryKind → String
  | .adjacentRelationships => "Adjacent relations"
  | .propertyKeys => "Prop counts"
  | .propertyValues => "Prop vals"
  | .reachableLabels => "Next labels"
  | .allLabels => "Labels"
  | .allRelationshipTypes => "Relationship types"

structure Query where
  kind : QueryKind
  text : String
  timeout : Nat
  deriving DecidableEq, Repr

def adjacentSuffix : String :=
  "-[r]-() UNWIND labels(startNode(r)) as startLabel UNWIND labels(endNode(r)) as endLabel " ++
    "RETURN distinct type(r) as type, properties(r) as props, startLabel, endLabel, " ++
    "(startNode(r) = n) as out, count(distinct(r)) as count ORDER BY type ASC;"

def keySuffix : String :=
  " WITH distinct(n), keys(n) as keys UNWIND keys as key RETURN distinct(key) as key, " ++
    "count(*) as count;"

def valueSuffix (property : String) : String :=
  " WITH distinct(n) RETURN distinct(n." ++ property ++ ") as val, count(*) as count;"

def reachableSuffix : String :=
  "(n) UNWIND labels(n) as label RETURN label, count(distinct(n)) as count;"

def allLabelsText : String :=
  "MATCH (n) WITH *, LABELS(n) as labels UNWIND labels as label RETURN distinct(label) as " ++
    "label, count(distinct(n)) as count"

def allRelationshipTypesText : String :=
  "MATCH ()-[n]-() RETURN DISTINCT type(n) as type, count(*) as count"

def defaultWalkTimeout : Nat := 30000
def defaultOverviewTimeout : Nat := 3000

/-- The time limits, in milliseconds, that queries are built with. -/
structure QueryBuilder where
  walkTimeout : Nat
  overviewTimeout : Nat
  deriving DecidableEq, Repr

instance : Inhabited QueryBuilder := ⟨⟨defaultWalkTimeout, defaultOverviewTimeout⟩⟩

namespace QueryBuilder

def focal (w : Walk) (c : Candidate) : Option String :=
  if c.isReady then some (w.pattern ++ nodePattern "n" c.label c.filters) else none

def adjacentRelationships (b : QueryBuilder) (w : Walk) (c : Candidate) : Option Query :=
  (focal w c).map fun text => ⟨.adjacentRelationships, text ++ adjacentSuffix, b.walkTimeout⟩

def propertyKeys (b : QueryBuilder) (w : Walk) (c : Candidate) : Option Query :=
  (focal w c).map fun text => ⟨.propertyKeys, text ++ keySuffix, b.walkTimeout⟩

def propertyValues (b : QueryBuilder) (w : Walk) (c : Candidate) (property : String) :
    Option Query :=
  if property.isEmpty then none
  else (focal w c).map fun text =>
    ⟨.propertyValues, text ++ valueSuffix property, b.walkTimeout⟩

/-- The candidate plays no part, so an empty walk lists every label there is. -/
def reachableLabels (b : QueryBuilder) (w : Walk) : Query :=
  ⟨.reachableLabels, w.pattern ++ reachableSuffix, b.walkTimeout⟩

def allLabels (b : QueryBuilder) : Query := ⟨.allLabels, allLabelsText, b.overviewTimeout⟩

def allRelationshipTypes (b : QueryBuilder) : Query :=
  ⟨.allRelationshipTypes, allRelationshipTypesText, b.overviewTimeout⟩

end QueryBuilder

end SchemaWalk
