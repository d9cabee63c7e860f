import SchemaWalk.Json.Lexeme
import SchemaWalk.Table

/-! # Reading JSON

One grammar for reading values and for passing over them; the two differ in what they make
of words. Nesting is bounded by the caller. -/

namespace SchemaWalk.Json

variable {α κ : Type}

def readItems (item : Reader α) (closing : Char) : Nat → Reader (List α)
  | 0, _ => none
  | tries + 1, cs =>
    match item (skipBlanks cs) with
    | none => none
    | some (x, rest) =>
      match skipBlanks rest with
      | [] => none
      | c :: rest =>
        if c = ',' then
          (readItems item closing tries rest).map fun (xs, rest) => (x :: xs, rest)
        else if c = closing then some ([x], rest)
        else none

/-- What stands between an opening and its closing character. An item takes at least one
character, so there are no more of them than characters. -/
def readEnclosed (item : Reader α) (closing : Char) : Reader (List α) := fun cs =>
  match skipBlanks cs with
  | [] => none
  | c :: rest =>
    if c = closing then some ([], rest) else readItems item closing (c :: rest).length (c :: rest)

def readMember (key : Reader κ) (value : κ → Reader α) : Reader (κ × α) := fun cs => do
  let (k, rest) ← key cs
  match skipBlanks rest with
  | ':' :: rest => (value k (skipBlanks rest)).map fun (x, rest) => ((k, x), rest)
  | _ => none

structure Builder (α κ : Type) where
  null : α
  bool : Bool → α
  number : NumberWord → Option α
  string : Reader α
  key : Reader κ
  array : List α → α
  object : List (κ × α) → α

def readKeyword (b : Builder α κ) : Reader α := fun cs =>
  match Reader.literal "null".toList cs with
  | some ((), rest) => some (b.null, rest)
  | none =>
    match Reader.literal "true".toList cs with
    | some ((), rest) => some (b.bool true, rest)
    | none => (Reader.literal "false".toList cs).map fun ((), rest) => (b.bool false, rest)

def readScalar (b : Builder α κ) : Reader α
  | [] => none
  | c :: rest =>
    if c = '"' then b.string (c :: rest)
    else if c = '-' ∨ c.isDigit then do
      let (w, rest) ← numberWord (c :: rest)
      (b.number w).map fun x => (x, rest)
    else readKeyword b (c :: rest)

def readValue (b : Builder α κ) : Nat → Reader α
  | 0, cs => readScalar b cs
  | depth + 1, cs =>
    match cs with
    | '[' :: rest =>
      (readEnclosed (readValue b depth) ']' rest).map fun (xs, rest) => (b.array xs, rest)
    | '\x7b' :: rest =>
      (readEnclosed (readMember b.key (fun _ => readValue b depth)) '\x7d' rest).map
        fun (ms, rest) => (b.object ms, rest)
    | cs => readScalar b cs

/-- Brings members into the order of their keys; the last of equal keys stays. -/
def sortMembers (members : List (String × Json)) : List (String × Json) :=
  members.foldl (fun sorted m => Table.place m.1 m.2 sorted) []

def builder : Builder Json String where
  null := .null
  bool := .bool
  number w := w.value.map .number
  string cs := (stringWord cs).map fun (s, rest) => (.string s, rest)
  key := stringWord
  array := .array
  object members := .object (sortMembers members)

def skipper : Builder Unit Unit where
  null := ()
  bool _ := ()
  number _ := some ()
  string := skipStringWord
  key := skipStringWord
  array _ := ()
  object _ := ()

/-- Passes over a value of any depth: every bracket takes a character. -/
def skip : Reader Unit := fun cs => readValue skipper cs.length cs

def alone (r : Reader α) (text : String) : Option α :=
  match r (skipBlanks text.toList) with
  | some (x, rest) => if (skipBlanks rest).isEmpty then some x else none
  | none => none

def maxDepth : Nat := 127

def parse? (text : String) : Option Json := alone (readValue builder maxDepth) text

end SchemaWalk.Json
