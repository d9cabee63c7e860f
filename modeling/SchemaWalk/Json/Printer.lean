import SchemaWalk.Decimal.Shortest
import SchemaWalk.Json.Basic

/-! # Writing JSON

Compact text has no blanks at all; indented text puts every member on a line of its own,
two blanks deeper. Text is raw but for quotes, backslashes and control characters. -/

namespace SchemaWalk

open Decimal

namespace Json

def controlEscape (c : Char) : List Char :=
  let ds := Nat.toDigits 16 c.toNat
  '\\' :: 'u' :: (List.replicate (4 - ds.length) '0' ++ ds)

def escapeChar (c : Char) : List Char :=
  if c = '"' then ['\\', '"']
  else if c = '\\' then ['\\', '\\']
  else if c = '\x08' then ['\\', 'b']
  else if c = '\x0c' then ['\\', 'f']
  else if c = '\n' then ['\\', 'n']
  else if c = '\r' then ['\\', 'r']
  else if c = '\t' then ['\\', 't']
  else if c.toNat < 0x20 then controlEscape c
  else [c]

def quote (s : String) : String :=
  String.ofList ('"' :: (s.toList.flatMap escapeChar ++ ['"']))

end Json

/-- Digits with the point behind the first `point` of them. Outside the digits there are
zeros, and at least one digit stands on each side of the point. -/
def placePoint (digits : List Char) (point : Int) : List Char :=
  if point ≤ 0 then '0' :: '.' :: (List.replicate (-point).toNat '0' ++ digits)
  else if point < digits.length then
    digits.take point.toNat ++ '.' :: digits.drop point.toNat
  else digits ++ List.replicate (point.toNat - digits.length) '0' ++ ['.', '0']

def scientific (digits : List Char) (power : Int) : List Char :=
  digits.take 1 ++ (if digits.length ≤ 1 then [] else '.' :: digits.drop 1) ++
    'e' :: (if power < 0 then '-' else '+') :: Nat.toDigits 10 power.natAbs

/-- The shortest digits, with a plain point from five decimals up to sixteen digits before
the point, with a power of ten outside. Zero keeps its sign. -/
def renderFloat (x : Binary64) : List Char :=
  let sign := if x.negative then ['-'] else []
  if x.isZero then sign ++ ['0', '.', '0']
  else
    let shortest := x.shortest
    let digits := Nat.toDigits 10 shortest.digits
    let point := digits.length + shortest.power
    sign ++ (if -5 < point ∧ point ≤ 16 then placePoint digits point
      else scientific digits (point - 1))

def JsonNumber.render : JsonNumber → String
  | .integer value _ => toString value
  | .float value => String.ofList (renderFloat value)

namespace Json

mutual

def render : Json → String
  | .null => "null"
  | .bool value => if value then "true" else "false"
  | .number value => value.render
  | .string value => quote value
  | .array items => "[" ++ renderItems items ++ "]"
  | .object members => "\x7b" ++ renderMembers members ++ "\x7d"

def renderItems : List Json → String
  | [] => ""
  | [item] => item.render
  | item :: rest => item.render ++ "," ++ renderItems rest

def renderMembers : List (String × Json) → String
  | [] => ""
  | [(key, value)] => quote key ++ ":" ++ value.render
  | (key, value) :: rest => quote key ++ ":" ++ value.render ++ "," ++ renderMembers rest

end

def newline (level : Nat) : String := "\n" ++ "".pushn ' ' (2 * level)

mutual

def indented (level : Nat) : Json → String
  | .array items =>
    if items.isEmpty then "[]"
    else "[" ++ indentedItems level items ++ newline level ++ "]"
  | .object members =>
    if members.isEmpty then "\x7b\x7d"
    else "\x7b" ++ indentedMembers level members ++ newline level ++ "\x7d"
  | other => other.render

def indentedItems (level : Nat) : List Json → String
  | [] => ""
  | [item] => newline (level + 1) ++ item.indented (level + 1)
  | item :: rest =>
    newline (level + 1) ++ item.indented (level + 1) ++ "," ++ indentedItems level rest

def indentedMembers (level : Nat) : List (String × Json) → String
  | [] => ""
  | [(key, value)] => newline (level + 1) ++ quote key ++ ": " ++ value.indented (level + 1)
  | (key, value) :: rest =>
    newline (level + 1) ++ quote key ++ ": " ++ value.indented (level + 1) ++ "," ++
      indentedMembers level rest

end

end Json

end SchemaWalk
