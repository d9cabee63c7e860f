import SchemaWalk.Ron.Quoted
import SchemaWalk.Ron.Word

/-! # Gaps and attributes

What may stand between two words: blanks, comments up to the end of the line, and comments
between `/*` and `*/`, which nest. And what stands in front of a document: `#![…]` with
extensions to turn on, or with a type or schema, which only has to be a string. -/

namespace SchemaWalk.Ron

/-- The blanks of the notation are those of pattern syntax, not those of text. -/
def isBlank (c : Char) : Bool :=
  let n := c.toNat
  (0x9 ≤ n && n ≤ 0xd) || n == 0x20 || n == 0x85 || n == 0x200e || n == 0x200f ||
    n == 0x2028 || n == 0x2029

inductive GapState where
  | between
  | line
  | block (level : Nat)
  deriving DecidableEq, Repr

/-- Passes over a gap. A lone slash and a comment without an end are none. -/
def skipGapFrom : GapState → List Char → Option (List Char)
  | .between, [] => some []
  | .between, '/' :: '/' :: cs => skipGapFrom .line cs
  | .between, '/' :: '*' :: cs => skipGapFrom (.block 0) cs
  | .between, c :: cs =>
    if c = '/' then none else if isBlank c then skipGapFrom .between cs else some (c :: cs)
  | .line, [] => some []
  | .line, c :: cs => if c = '\n' then skipGapFrom .between cs else skipGapFrom .line cs
  | .block _, [] => none
  | .block level, '/' :: '*' :: cs => skipGapFrom (.block (level + 1)) cs
  | .block 0, '*' :: '/' :: cs => skipGapFrom .between cs
  | .block (level + 1), '*' :: '/' :: cs => skipGapFrom (.block level) cs
  | .block level, _ :: cs => skipGapFrom (.block level) cs

def skipGap (cs : List Char) : Option (List Char) := skipGapFrom .between cs

/-! ## Attributes -/

inductive Extension where
  | unwrapNewtypes
  /-- A value may follow `Some` without parentheses. -/
  | implicitSome
  /-- The parentheses of `Some` may be those of what it wraps. -/
  | unwrapVariantNewtypes
  | explicitStructNames
  deriving DecidableEq, Repr

def Extension.ofName? : String → Option Extension
  | "unwrap_newtypes" => some .unwrapNewtypes
  | "implicit_some" => some .implicitSome
  | "unwrap_variant_newtypes" => some .unwrapVariantNewtypes
  | "explicit_struct_names" => some .explicitStructNames
  | _ => none

abbrev Attributes := List Extension

namespace Attributes

def has (a : Attributes) (e : Extension) : Bool := a.contains e

end Attributes

def extensions : Nat → Reader Attributes
  | 0, _ => none
  | tries + 1, cs => do
    let (n, cs) ← name cs
    let e ← Extension.ofName? n.text
    match ← skipGap cs with
    | ')' :: cs => return ([e], cs)
    | ',' :: cs =>
      match ← skipGap cs with
      | ')' :: cs => return ([e], cs)
      | cs =>
        let (es, cs) ← extensions tries cs
        return (e :: es, cs)
    | _ => none

def marks : List Char → List Char → Option (List Char)
  | [], cs => some cs
  | m :: ms, c :: cs => if m = c then (skipGap cs).bind (marks ms) else none
  | _ :: _, [] => none

def attributeBody : Reader Attributes := fun cs => do
  let (n, cs) ← name cs
  let cs ← skipGap cs
  if n.raw then none
  else if n.text = "enable" then
    let cs ← marks ['('] cs
    extensions (cs.length + 1) cs
  else if n.text = "type" ∨ n.text = "schema" then
    let (_, cs) ← string (← marks ['='] cs)
    return ([], cs)
  else none

def attributes : Nat → Reader Attributes
  | 0, _ => none
  | tries + 1, cs => do
    match ← skipGap cs with
    | '#' :: cs =>
      let (es, cs) ← attributeBody (← marks ['#', '!', '['] ('#' :: cs))
      let cs ← marks [']'] (← skipGap cs)
      let (others, cs) ← attributes tries cs
      return (es ++ others, cs)
    | cs => return ([], cs)

end SchemaWalk.Ron
