import SchemaWalk.Text.Characters
import SchemaWalk.Text.Reader

/-! # Words

Names, raw or plain, and given words that stand alone. -/

namespace SchemaWalk.Ron

open Text

def isRawNameChar (c : Char) : Bool := isIdentifierContinue c || c == '.' || c == '+' || c == '-'

def isNameStart (c : Char) : Bool := c == '_' || isIdentifierStart c

/-- The opening of a string, byte or byte string, which is no name. -/
def opensQuoted : List Char → Bool
  | 'b' :: '"' :: _ | 'b' :: '\'' :: _ | 'b' :: 'r' :: '#' :: _ | 'b' :: 'r' :: '"' :: _ => true
  | 'r' :: '"' :: _ | 'r' :: '#' :: '"' :: _ | 'r' :: '#' :: '#' :: _ => true
  | _ => false

structure Name where
  text : String
  raw : Bool
  deriving DecidableEq, Repr

def name : Reader Name := fun cs =>
  if opensQuoted cs then none
  else match cs with
    | 'r' :: '#' :: rest =>
      let text := rest.takeWhile isRawNameChar
      if text.isEmpty then none
      else some (⟨String.ofList text, true⟩, rest.dropWhile isRawNameChar)
    | c :: rest =>
      if isNameStart c then
        some (⟨String.ofList (c :: rest.takeWhile isIdentifierContinue), false⟩,
          rest.dropWhile isIdentifierContinue)
      else none
    | [] => none

def keyword (wanted : String) : Reader Unit := fun cs =>
  match Reader.literal wanted.toList cs with
  | some ((), c :: rest) => if isIdentifierContinue c then none else some ((), c :: rest)
  | other => other

def firstOf {α : Type} : List (Reader α) → Reader α
  | [], _ => none
  | r :: others, cs =>
    match r cs with
    | some out => some out
    | none => firstOf others cs

end SchemaWalk.Ron
