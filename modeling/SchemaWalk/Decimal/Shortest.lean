import SchemaWalk.Decimal.Binary64

/-! # Shortest digits

The shortest decimal that reads back as a given double. A decimal reads back if it lies in
the interval of values that round to the double; the ends belong to it when the mantissa is
even. The grids of multiples of `10 ^ k` are tried from the coarsest on, and of the two
neighbours of the value the nearer one wins, a tie going to the even digits. -/

namespace SchemaWalk.Decimal

structure Digits where
  digits : Nat
  power : Int
  deriving DecidableEq, Repr

/-- Lengths of the interval around a double, all in one unit: the double lies at `value`,
the interval reaches from `low` to `high`, and the grid has a point every `spacing`. -/
structure Grid where
  low : Nat
  value : Nat
  high : Nat
  closed : Bool
  spacing : Nat
  deriving DecidableEq, Repr

namespace Grid

def holds (g : Grid) (d : Nat) : Bool :=
  if g.closed then g.low ≤ d * g.spacing && d * g.spacing ≤ g.high
  else g.low < d * g.spacing && d * g.spacing < g.high

def nearest (g : Grid) : Option Nat :=
  let below := g.value / g.spacing
  let above := below + 1
  if g.holds below then
    if g.holds above then
      let down := g.value - below * g.spacing
      let up := above * g.spacing - g.value
      some (if down < up then below else if up < down then above
        else if below % 2 = 0 then below else above)
    else some below
  else if g.holds above then some above
  else none

end Grid

namespace Binary64

/-- The interval of a double against the multiples of `10 ^ power`. A quarter of the
mantissa's unit is the common measure: below a power of two the next double is only half as
far away. -/
def grid (x : Binary64) (power : Int) : Grid :=
  let quarter := x.exponent - 2
  let unit := Nat.pow 2 quarter.toNat * Nat.pow 10 (-power).toNat
  let spacing := Nat.pow 10 power.toNat * Nat.pow 2 (-quarter).toNat
  let half := if x.mantissa = Nat.pow 2 52 ∧ -1074 < x.exponent then 1 else 2
  ⟨(4 * x.mantissa - half) * unit, 4 * x.mantissa * unit, (4 * x.mantissa + 2) * unit,
    x.mantissa % 2 = 0, spacing⟩

def exactDigits (x : Binary64) : Digits :=
  match x.exponent with
  | .ofNat e => ⟨x.mantissa * Nat.pow 2 e, 0⟩
  | .negSucc e => ⟨x.mantissa * Nat.pow 5 (e + 1), -(e + 1 : Nat)⟩

def search (x : Binary64) (power : Int) : Nat → Digits
  | 0 => x.exactDigits
  | tries + 1 =>
    match (x.grid power).nearest with
    | some d => ⟨d, power⟩
    | none => search x (power - 1) tries

/-- The search opens on a grid coarser than the value, and seventeen digits always
suffice. -/
def shortest (x : Binary64) : Digits :=
  search x ((x.mantissa.log2 + x.exponent) * 30103 / 100000 + 2) 25

end Binary64

end SchemaWalk.Decimal
