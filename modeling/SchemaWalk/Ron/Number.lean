import SchemaWalk.Decimal.Numeral
import SchemaWalk.Ron.Quoted
import SchemaWalk.Ron.Word

/-! # Numbers and ranges

Integers in four bases, floats, bytes, and ranges between any two of them. No walk holds a
number, so a reader only says where one ends. -/

namespace SchemaWalk.Ron

open Decimal

/-! ## Characters of numbers -/

def isFloatChar (c : Char) : Bool :=
  c.isDigit || c == 'e' || c == 'E' || c == '.' || c == '+' || c == '-' || c == '_'

def isIntegerChar (c : Char) : Bool := (hexValue c).isSome || c == '_'

def opensNumber (c : Char) : Bool := c.isDigit || c == '+' || c == '-' || c == '.'

def unsigned : List Char → List Char
  | '+' :: cs => cs
  | '-' :: cs => cs
  | cs => cs

def floatRun : List Char → List Char
  | [] => []
  | '.' :: '.' :: _ => []
  | c :: cs => if isFloatChar c then c :: floatRun cs else []

def looksFloat (cs : List Char) : Bool :=
  ((unsigned cs).takeWhile isIntegerChar).length < (floatRun (unsigned cs)).length

/-! ## Floats -/

def floatWords : List String :=
  ["inf", "+inf", "-inf", "NaN", "+NaN", "-NaN"].flatMap fun w => [w, w ++ "f32", w ++ "f64"]

/-- Whether an underscore may come behind a character of a float. A sign leaves that as it
was. -/
def admitsUnderscore (before : Bool) (c : Char) : Bool :=
  c.isDigit || c == 'e' || c == 'E' || (before && c != '.')

def withoutUnderscores : Bool → List Char → Option (List Char)
  | _, [] => some []
  | admitted, c :: cs =>
    if c = '_' then if admitted then withoutUnderscores admitted cs else none
    else (withoutUnderscores (admitsUnderscore admitted c) cs).map (c :: ·)

def float : Reader Unit := fun cs =>
  match firstOf (floatWords.map keyword) cs with
  | some out => some out
  | none =>
    let run := floatRun cs
    let rest := cs.drop run.length
    match (withoutUnderscores false run).bind Numeral.ofChars? with
    | some _ => some ((firstOf [keyword "f32", keyword "f64"] rest).getD ((), rest))
    | none => none

/-! ## Integers -/

def splitBase : List Char → Nat × List Char
  | '0' :: 'b' :: cs => (2, cs)
  | '0' :: 'o' :: cs => (8, cs)
  | '0' :: 'x' :: cs => (16, cs)
  | cs => (10, cs)

def digitsInBase (base : Nat) (cs : List Char) : Option Nat :=
  (cs.filter (· != '_')).foldlM (fun n c =>
    match hexValue c with
    | some d => if d < base then some (base * n + d) else none
    | none => none) 0

/-- The sizes an integer may carry, with the largest value and the largest negated one. -/
def integerSizes : List (String × Nat × Nat) :=
  [8, 16, 32, 64].flatMap fun bits =>
    [("i" ++ toString bits, Nat.pow 2 (bits - 1) - 1, Nat.pow 2 (bits - 1)),
      ("u" ++ toString bits, Nat.pow 2 bits - 1, 0)]

def integer : Reader Unit := fun cs =>
  let negative := cs.head? = some '-'
  let (base, body) := splitBase (unsigned cs)
  let digits := body.takeWhile isIntegerChar
  let rest := body.dropWhile isIntegerChar
  if digits.isEmpty || digits.head? = some '_' then none
  else match digitsInBase base digits with
    | none => none
    | some n =>
      let fits (limits : Nat × Nat) : Bool := n ≤ if negative then limits.2 else limits.1
      match integerSizes.find? (fun size => (keyword size.1 rest).isSome) with
      | some size => if fits size.2 then keyword size.1 rest else none
      | none => if fits (UInt64.size - 1, UInt64.size / 2) then some ((), rest) else none

def number : Reader Unit := fun cs =>
  if looksFloat cs then float cs else firstOf [integer, float] cs

/-! ## Ranges -/

def bound : Reader Unit := firstOf [byte, number]

/-- Two points between bounds. Either bound may be missing, but an equals sign asks for the
second. -/
def range : Reader Unit := fun cs =>
  match ((bound cs).map (·.2)).getD cs with
  | '.' :: '.' :: '=' :: cs => bound cs
  | '.' :: '.' :: cs => some ((bound cs).getD ((), cs))
  | _ => none

example : range "1..=2,".toList = some ((), [',']) ∧ range "1..=,".toList = none := by
  decide +kernel
example : range ".. 2".toList = some ((), [' ', '2']) ∧ range "1 ..2".toList = none := by
  decide +kernel
example : float "1_0.5_e-_3)".toList = some ((), [')']) ∧ float "1._5".toList = none := by
  decide +kernel

end SchemaWalk.Ron
