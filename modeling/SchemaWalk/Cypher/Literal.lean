import SchemaWalk.Decimal.Numeral

/-! # Literals

A filter value becomes a bare number, a bare boolean, or a text between single quotes.
Nothing inside is escaped. -/

namespace SchemaWalk.Cypher

inductive Literal where
  | number (digits : String)
  | bool (value : Bool)
  | text (content : String)
  deriving DecidableEq, Repr

namespace Literal

/-- Exactly `true` and `false` are booleans, finite numerals are numbers, all else is
text. -/
def encode (value : String) : Literal :=
  if value = "true" then .bool true
  else if value = "false" then .bool false
  else if Decimal.isFiniteNumeral value then .number value
  else .text value

def render : Literal → String
  | .number digits => digits
  | .bool value => if value then "true" else "false"
  | .text content => "'" ++ content ++ "'"

def isNumeric : Literal → Bool
  | .number _ => true
  | _ => false

def isBare : Literal → Bool
  | .text _ => false
  | _ => true

end Literal

/-- A name between backticks, so that blanks and punctuation survive. -/
def quoteName (name : String) : String := "`" ++ name ++ "`"

end SchemaWalk.Cypher
