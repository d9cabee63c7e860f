import SchemaWalk.Ron.Attributes
import SchemaWalk.Ron.Number
import SchemaWalk.Ron.Value

/-! # Reading RON

A document is a run of attributes and one value, with gaps anywhere between words. Members
are separated by commas; one more comma may follow the last. Nesting is bounded: every
bracket and every member in it costs one of `maxDepth`. -/

namespace SchemaWalk.Ron

variable {α : Type}

def separated (item : Reader α) (closing : Char) : List Char → Reader (List α)
  | [], _ => none
  | _ :: tries, cs =>
    match skipGap cs with
    | none | some [] => none
    | some (c :: cs) =>
      if c = closing then some ([], cs)
      else match item (c :: cs) with
        | none => none
        | some (x, cs) =>
          match skipGap cs with
          | none | some [] => none
          | some (c :: cs) =>
            if c = ',' then (separated item closing tries cs).map fun (xs, cs) => (x :: xs, cs)
            else if c = closing then some ([x], cs)
            else none

def members (item : Reader α) (closing : Char) : Reader (List α) := fun cs =>
  separated item closing (closing :: cs) cs

def colonValue (value : Reader α) : Reader α := fun cs => do
  match ← skipGap cs with
  | ':' :: cs => value (← skipGap cs)
  | _ => none

def field (value : Reader RonValue) : Reader (String × RonValue) := fun cs => do
  let (key, cs) ← name cs
  let (x, cs) ← colonValue value cs
  return ((key.text, x), cs)

def entry (value : Reader RonValue) : Reader (RonValue × RonValue) := fun cs => do
  let (key, cs) ← value cs
  let (x, cs) ← colonValue value cs
  return ((key, x), cs)

def opensField (cs : List Char) : Bool :=
  ((skipGap cs).bind fun cs => (name cs).bind fun (_, cs) => (skipGap cs).map fun cs =>
    cs.head? == some ':').getD false

def parentheses (value : Reader RonValue) (label : Option String) : Reader RonValue := fun cs =>
  if opensField cs then
    (members (field value) ')' cs).map fun (fields, cs) => (.record label fields, cs)
  else (members value ')' cs).map fun (items, cs) => (.tuple label items, cs)

def bareWords : List String :=
  ["true", "false", "None", "inf", "inff32", "inff64", "NaN", "NaNf32", "NaNf64"]

/-! ## Optional values -/

def passing (r : Reader α) (cs : List Char) : List Char := ((r cs).map (·.2)).getD cs

/-- Past the quoted item that comes next, if one does, and past the gaps on both its sides.
There is no way past a string without an end. -/
def skipQuoted (cs : List Char) : Option (List Char) := do
  let cs := passing character (← skipGap cs)
  if opensWithoutEnd cs then none else skipGap (passing byteString (passing string cs))

/-- Whether a comma comes before the closing bracket that matches one already opened, and more
than that bracket behind the comma. Brackets in comments and in quotes do not count. -/
def commaFollows : Nat → Nat → List Char → Option Bool
  | 0, _, _ => none
  | tries + 1, level, cs => do
    match ← skipQuoted cs with
    | [] => none
    | c :: cs =>
      if c = '(' ∨ c = '[' ∨ c = '\x7b' then commaFollows tries (level + 1) cs
      else if c = ')' ∨ c = ']' ∨ c = '\x7d' then
        match level with
        | 0 => return false
        | level + 1 => commaFollows tries level cs
      else if c = ',' ∧ level = 0 then return (← skipGap cs).head? != some ')'
      else commaFollows tries level cs

def opensTuple (cs : List Char) : Option Bool :=
  if opensField cs then some true else commaFollows (cs.length + 1) 0 cs

example : opensTuple "'a'/*)*/, 1)".toList = some true := by decide +kernel
example : opensTuple "'a'/*,*/,)".toList = some false := by decide +kernel
example : opensTuple "b'\\xff','\"',1)".toList = none := by decide +kernel

def closed (value : Reader RonValue) : Reader RonValue := fun cs => do
  let (x, cs) ← value cs
  match ← skipGap cs with
  | ')' :: cs => return (x, cs)
  | ',' :: cs =>
    match ← skipGap cs with
    | ')' :: cs => return (x, cs)
    | _ => none
  | _ => none

/-- What `Some` wraps, behind its parenthesis. Where parentheses may be shared with what stands
in them, empty ones hold the empty tuple. -/
def wrapped (a : Attributes) (content member : Reader RonValue) : Reader RonValue := fun cs =>
  if a.has .unwrapVariantNewtypes then
    match cs with
    | ')' :: cs => some (.tuple none [], cs)
    | cs =>
      match opensTuple cs with
      | none => none
      | some true => parentheses member none cs
      | some false => closed content cs
  else closed content cs

def optional (a : Attributes) (content member : Reader RonValue) : Reader RonValue := fun cs => do
  let (x, cs) ← match ← skipGap cs with
    | '(' :: cs => wrapped a content member (← skipGap cs)
    | cs => if a.has .implicitSome then content cs else none
  return (.tuple (some "Some") [x], cs)

/-! ## Values -/

structure PartReaders where
  inside : Reader RonValue
  content : Reader RonValue
  /-- For a member between parentheses that are those of `Some` and of what it wraps at once. -/
  member : Reader RonValue

def named (a : Attributes) (parts : PartReaders) (n : Name) : Reader RonValue := fun cs =>
  if !n.raw && bareWords.contains n.text then some (.unit n.text, cs)
  else if !n.raw && n.text == "Some" then optional a parts.content parts.member cs
  else match skipGap cs with
    | none => none
    | some ('(' :: cs) => parentheses parts.inside (some n.text) cs
    | some cs => some (.unit n.text, cs)

def source (r : Reader Unit) : Reader RonValue := fun cs =>
  (r cs).map fun ((), rest) => (.scalar (cs.take (cs.length - rest.length)), rest)

def stringValue : Reader RonValue := fun cs => (string cs).map fun (s, cs) => (.string s, cs)

def simple : Reader RonValue
  | [] => none
  | c :: cs =>
    if opensNumber c then source number (c :: cs)
    else firstOf [stringValue, source character, source byte, source byteString] (c :: cs)

def compound (a : Attributes) (parts : PartReaders) : Reader RonValue := fun cs =>
  match name cs with
  | some (n, cs) => named a parts n cs
  | none =>
    match cs with
    | '(' :: cs => parentheses parts.inside none cs
    | '[' :: cs => (members parts.inside ']' cs).map fun (items, cs) => (.list items, cs)
    | '\x7b' :: cs => (members (entry parts.inside) '\x7d' cs).map fun (es, cs) => (.map es, cs)
    | cs => simple cs

def valueWith (a : Attributes) (parts : PartReaders) : Reader RonValue :=
  firstOf [source range, compound a parts]

def flat : Reader RonValue := fun cs =>
  match name cs with
  | some (n, cs) =>
    if !n.raw && n.text == "Some" then none
    else if !n.raw && bareWords.contains n.text then some (.unit n.text, cs)
    else match skipGap cs with
      | none | some ('(' :: _) => none
      | some cs => some (.unit n.text, cs)
  | none =>
    match cs with
    | '(' :: ')' :: cs => some (.tuple none [], cs)
    | cs => simple cs

def noValue : Reader RonValue := fun _ => none

/-- A value at a depth. The bracket and the member cost one each, `Some` costs one. -/
def value (a : Attributes) : Nat → Reader RonValue
  | 0 => firstOf [source range, flat]
  | 1 => valueWith a ⟨noValue, value a 0, noValue⟩
  | 2 => valueWith a ⟨value a 0, value a 1, noValue⟩
  | depth + 3 => valueWith a ⟨value a (depth + 1), value a (depth + 2), value a depth⟩

def maxDepth : Nat := 128

def document (cs : List Char) : Option (Attributes × RonValue) := do
  let (a, cs) ← attributes (cs.length + 1) cs
  let (x, cs) ← value a maxDepth cs
  match ← skipGap cs with
  | [] => return (a, x)
  | _ => none

end SchemaWalk.Ron
