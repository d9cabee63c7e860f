import SchemaWalk.Decimal.Binary64

/-! # JSON values

Numbers are whole numbers of at most 64 bits or finite doubles, never both: `1` and `1.0`
are different values. Object members are kept in the order of their keys by whoever builds
an object. -/

namespace SchemaWalk

open Decimal

inductive JsonNumber where
  | integer (value : Int) (inRange : -9223372036854775808 ≤ value ∧ value < 18446744073709551616)
  | float (value : Binary64)
  deriving DecidableEq, Repr

inductive Json where
  | null
  | bool (value : Bool)
  | number (value : JsonNumber)
  | string (value : String)
  | array (items : List Json)
  | object (members : List (String × Json))
  deriving Inhabited, Repr

namespace Json

def ofNat? (n : Nat) : Option Json :=
  if h : n < UInt64.size then
    some (.number (.integer n ⟨by omega, by simp only [UInt64.size] at h; omega⟩))
  else none

/-- A whole number in the unsigned 64-bit range. Floats are none, however round. -/
def toNat? : Json → Option Nat
  | .number (.integer value _) => if 0 ≤ value then some value.toNat else none
  | _ => none

end Json

end SchemaWalk
