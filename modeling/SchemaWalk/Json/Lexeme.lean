import SchemaWalk.Json.Basic
import SchemaWalk.Decimal.Numeral
import SchemaWalk.Text.Reader

/-! # The words of JSON

Blanks, strings and numbers as they stand in a text. A number with a point or an exponent
is scaled: the leading digits that fit 64 bits become a double, which is multiplied or
divided by a power of ten. -/

namespace SchemaWalk

open Decimal

namespace Json

def isBlank (c : Char) : Bool := c == ' ' || c == '\n' || c == '\t' || c == '\r'

def skipBlanks (cs : List Char) : List Char := cs.dropWhile isBlank

/-! ## Strings -/

def plainEscape : Char → Option Char
  | '"' => some '"'
  | '\\' => some '\\'
  | '/' => some '/'
  | 'b' => some '\x08'
  | 'f' => some '\x0c'
  | 'n' => some '\n'
  | 'r' => some '\r'
  | 't' => some '\t'
  | _ => none

def hexUnit (a b c d : Char) : Option Nat := do
  return 4096 * (← hexValue a) + 256 * (← hexValue b) + 16 * (← hexValue c) + (← hexValue d)

def stringTail : Reader (List Char)
  | '"' :: rest => some ([], rest)
  | '\\' :: 'u' :: a :: b :: c :: d :: rest =>
    match hexUnit a b c d with
    | none => none
    | some unit =>
      if unit < 0xd800 ∨ 0xdfff < unit then
        (stringTail rest).map fun (text, rest) => (Char.ofNat unit :: text, rest)
      else if 0xdbff < unit then none
      else match rest with
        | '\\' :: 'u' :: a :: b :: c :: d :: rest =>
          match hexUnit a b c d with
          | none => none
          | some low =>
            if 0xdc00 ≤ low ∧ low ≤ 0xdfff then
              (stringTail rest).map fun (text, rest) =>
                (Char.ofNat (0x10000 + 0x400 * (unit - 0xd800) + (low - 0xdc00)) :: text, rest)
            else none
        | _ => none
  | '\\' :: letter :: rest =>
    match plainEscape letter with
    | none => none
    | some c => (stringTail rest).map fun (text, rest) => (c :: text, rest)
  | c :: rest =>
    if c.toNat < 0x20 ∨ c = '\\' then none
    else (stringTail rest).map fun (text, rest) => (c :: text, rest)
  | [] => none

def stringWord : Reader String
  | '"' :: rest => (stringTail rest).map fun (text, rest) => (String.ofList text, rest)
  | _ => none

/-- Passes over a string behind its opening quote, whatever its surrogates. -/
def skipStringTail : Reader Unit
  | '"' :: rest => some ((), rest)
  | '\\' :: 'u' :: a :: b :: c :: d :: rest =>
    if (hexUnit a b c d).isSome then skipStringTail rest else none
  | '\\' :: letter :: rest => if (plainEscape letter).isSome then skipStringTail rest else none
  | c :: rest => if c.toNat < 0x20 ∨ c = '\\' then none else skipStringTail rest
  | [] => none

def skipStringWord : Reader Unit
  | '"' :: rest => skipStringTail rest
  | _ => none

/-! ## Numbers -/

structure NumberWord where
  negative : Bool
  whole : List Char
  fraction : List Char
  exponent : Option Int
  deriving DecidableEq, Repr

def someDigits : Reader (List Char) := fun cs =>
  let ds := cs.takeWhile Char.isDigit
  if ds.isEmpty then none else some (ds, cs.dropWhile Char.isDigit)

def fractionWord : Reader (List Char)
  | '.' :: rest => someDigits rest
  | rest => some ([], rest)

def exponentWord : Reader (Option Int)
  | c :: rest =>
    if c = 'e' ∨ c = 'E' then
      let (negative, rest) := splitSign rest
      (someDigits rest).map fun (ds, rest) =>
        (some (if negative then -(digitsValue ds : Int) else digitsValue ds), rest)
    else some (none, c :: rest)
  | [] => some (none, [])

def numberWord : Reader NumberWord := fun cs => do
  let (negative, cs) := match cs with
    | '-' :: rest => (true, rest)
    | rest => (false, rest)
  let (whole, cs) ← someDigits cs
  if whole.head? = some '0' ∧ 1 < whole.length then none
  let (fraction, cs) ← fractionWord cs
  let (exponent, cs) ← exponentWord cs
  return (⟨negative, whole, fraction, exponent⟩, cs)

namespace NumberWord

def absorb (n : Nat) : List Char → Nat × List Char
  | [] => (n, [])
  | d :: ds =>
    let next := 10 * n + (d.toNat - '0'.toNat)
    if next < UInt64.size then absorb next ds else (n, d :: ds)

/-- Digits left over before the point raise the power of ten, digits taken behind it lower
the power. -/
def scaled (w : NumberWord) : Option Binary64 := do
  let (leading, dropped) := absorb 0 w.whole
  let (significand, ignored) := absorb leading w.fraction
  let power : Int := dropped.length - (w.fraction.length - ignored.length : Nat)
  let x ← (← Binary64.ofNat significand).scale (power + w.exponent.getD 0)
  return if w.negative then x.negate else x

/-- The whole number, if it is written without point and exponent and fits 64 bits. The
negative zero is none. -/
def integer? (w : NumberWord) : Option Int :=
  if w.fraction.isEmpty && w.exponent.isNone then
    let n := digitsValue w.whole
    if w.negative then if n = 0 ∨ UInt64.size / 2 < n then none else some (-n)
    else if n < UInt64.size then some n else none
  else none

def value (w : NumberWord) : Option JsonNumber :=
  match w.integer? with
  | some i =>
    if h : -9223372036854775808 ≤ i ∧ i < 18446744073709551616 then some (.integer i h) else none
  | none => w.scaled.map .float

end NumberWord

end Json

end SchemaWalk
