/-! # Finite doubles

A finite double is a sign and a mantissa times a power of two, in the one form that keeps
the mantissa as long as the exponent allows. Rounding is exact: a quotient of naturals goes
to the nearest double, a tie to the even mantissa. -/

namespace SchemaWalk.Decimal

/-- The value is `mantissa * 2 ^ exponent`, negated if `negative`. -/
structure Binary64 where
  negative : Bool
  mantissa : Nat
  exponent : Int
  mantissa_lt : mantissa < Nat.pow 2 53
  exponent_ge : -1074 ≤ exponent
  exponent_le : exponent ≤ 971
  normal : Nat.pow 2 52 ≤ mantissa ∨ exponent = -1074
  deriving DecidableEq, Repr

def roundHalfEven (numerator denominator : Nat) : Nat :=
  let q := numerator / denominator
  let r := numerator % denominator
  if 2 * r < denominator then q
  else if denominator < 2 * r then q + 1
  else q + q % 2

def countUnits (numerator denominator : Nat) : Int → Nat
  | .ofNat e => roundHalfEven numerator (denominator * Nat.pow 2 e)
  | .negSucc e => roundHalfEven (numerator * Nat.pow 2 (e + 1)) denominator

namespace Binary64

def zero (negative : Bool) : Binary64 where
  negative := negative
  mantissa := 0
  exponent := -1074
  mantissa_lt := by decide
  exponent_ge := by decide
  exponent_le := by decide
  normal := .inr rfl

instance : Inhabited Binary64 := ⟨zero false⟩

def isZero (x : Binary64) : Bool := x.mantissa == 0

def negate (x : Binary64) : Binary64 := { x with negative := !x.negative }

def ratio (x : Binary64) : Nat × Nat :=
  match x.exponent with
  | .ofNat e => (x.mantissa * Nat.pow 2 e, 1)
  | .negSucc e => (x.mantissa, Nat.pow 2 (e + 1))

def atExponent (negative : Bool) (numerator denominator : Nat) (exponent : Int) :
    Option Binary64 :=
  let m := countUnits numerator denominator exponent
  if hm : m < Nat.pow 2 53 then
    if hl : -1074 ≤ exponent then
      if hu : exponent ≤ 971 then
        if hn : Nat.pow 2 52 ≤ m ∨ exponent = -1074 then
          some ⟨negative, m, exponent, hm, hl, hu, hn⟩
        else none
      else none
    else none
  else none

/-- The nearest double to a quotient, none when that is infinite. The lengths of the two
numbers leave three exponents to try. -/
def ofRatio (negative : Bool) (numerator denominator : Nat) : Option Binary64 :=
  let low : Int := max (-1074) (numerator.log2 - denominator.log2 - 53)
  if numerator = 0 then some (zero negative)
  else (atExponent negative numerator denominator low).orElse fun _ =>
    (atExponent negative numerator denominator (low + 1)).orElse fun _ =>
    atExponent negative numerator denominator (low + 2)

def ofNat (n : Nat) : Option Binary64 := ofRatio false n 1

def times (x y : Binary64) : Option Binary64 :=
  ofRatio x.negative (x.ratio.1 * y.ratio.1) (x.ratio.2 * y.ratio.2)

def dividedBy (x y : Binary64) : Option Binary64 :=
  ofRatio x.negative (x.ratio.1 * y.ratio.2) (x.ratio.2 * y.ratio.1)

def powerOfTen (k : Nat) : Option Binary64 := ofNat (Nat.pow 10 k)

/-- Divides by the power of ten, in strides of 308 until the rest is a power of its own or
nothing is left. -/
def divideByPower (x : Binary64) (k : Nat) : Option Binary64 :=
  if x.isZero then some x
  else if k ≤ 308 then (powerOfTen k).bind x.dividedBy
  else ((powerOfTen 308).bind x.dividedBy).bind fun y => divideByPower y (k - 308)
  termination_by k

def scale (x : Binary64) : Int → Option Binary64
  | .ofNat k =>
    if k ≤ 308 then (powerOfTen k).bind x.times else if x.isZero then some x else none
  | .negSucc k => divideByPower x (k + 1)

end Binary64

end SchemaWalk.Decimal
