/-! # Decimal numerals

A numeral is a sign, digits with at most one point among them, and an exponent. Its value
is exact: digits times a power of ten, of any size. -/

namespace SchemaWalk.Decimal

def digitsValue (cs : List Char) : Nat :=
  cs.foldl (fun n c => 10 * n + (c.toNat - '0'.toNat)) 0

/-- The value is `digits * 10 ^ power`, negated if `negative`. -/
structure Numeral where
  negative : Bool
  digits : List Char
  power : Int
  deriving DecidableEq, Repr

def splitSign : List Char → Bool × List Char
  | '+' :: rest => (false, rest)
  | '-' :: rest => (true, rest)
  | rest => (false, rest)

def readExponent : List Char → Option Int
  | [] => some 0
  | c :: rest =>
    if c = 'e' ∨ c = 'E' then
      let (negative, ds) := splitSign rest
      if ds.isEmpty || !ds.all Char.isDigit then none
      else some (if negative then -(digitsValue ds : Int) else digitsValue ds)
    else none

def splitFraction : List Char → List Char × List Char
  | '.' :: rest => (rest.takeWhile Char.isDigit, rest.dropWhile Char.isDigit)
  | rest => ([], rest)

namespace Numeral

def ofChars? (cs : List Char) : Option Numeral :=
  let (negative, body) := splitSign cs
  let whole := body.takeWhile Char.isDigit
  let (fraction, tail) := splitFraction (body.dropWhile Char.isDigit)
  if whole.isEmpty && fraction.isEmpty then none
  else (readExponent tail).map fun e => ⟨negative, whole ++ fraction, e - fraction.length⟩

/-- Half a unit above the largest double; from here on a value rounds to infinity. -/
def overflowBound : Nat := Nat.pow 2 1024 - Nat.pow 2 970

/-- Whether the value rounds to a finite double. A power above 308 takes any digits but
zeros past the bound; a power below the number of digits leaves less than one. -/
def isFinite (n : Numeral) : Bool :=
  match n.power with
  | .ofNat p => digitsValue n.digits == 0 ||
      (p ≤ 308 && digitsValue n.digits * Nat.pow 10 p < overflowBound)
  | .negSucc p => n.digits.length ≤ p + 1 ||
      digitsValue n.digits < overflowBound * Nat.pow 10 (p + 1)

end Numeral

def isFiniteNumeral (s : String) : Bool :=
  ((Numeral.ofChars? s.toList).map Numeral.isFinite).getD false

end SchemaWalk.Decimal
