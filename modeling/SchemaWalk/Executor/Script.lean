import SchemaWalk.Executor

/-! # Scripted executors

A script answers from a list of rules and keeps a record of what it was asked. -/

namespace SchemaWalk

def hasPart (part : List Char) : List Char → Bool
  | [] => part.isEmpty
  | c :: cs => part.isPrefixOf (c :: cs) || hasPart part cs

structure Rule where
  contains : List String
  reply : Reply
  /-- How often the rule still answers; no number stands for always. -/
  usesLeft : Option Nat

namespace Rule

def isUsedUp (r : Rule) : Bool := r.usesLeft == some 0

def isFor (r : Rule) (text : String) : Bool :=
  r.contains.all fun part => hasPart part.toList text.toList

def spend (r : Rule) : Rule := { r with usesLeft := r.usesLeft.map (· - 1) }

end Rule

/-- The first rule that is for the text and not used up answers and is spent. -/
def answerFrom (text : String) : List Rule → Option (Reply × List Rule)
  | [] => none
  | r :: rest =>
    if !r.isUsedUp && r.isFor text then some (r.reply, r.spend :: rest)
    else (answerFrom text rest).map fun (reply, rest) => (reply, r :: rest)

structure Script where
  rules : List Rule
  asked : List Query

namespace Script

def ofRules (rules : List Rule) : Script := ⟨rules, []⟩

def unexpected (q : Query) : Reply := .failure ("unexpected query: " ++ q.text)

def answer (s : Script) (q : Query) : Reply × Script :=
  match answerFrom q.text s.rules with
  | some (reply, rules) => (reply, ⟨rules, s.asked ++ [q]⟩)
  | none => (unexpected q, { s with asked := s.asked ++ [q] })

instance : Executor Script := ⟨answer⟩

end Script

def Query.callLine (q : Query) : String :=
  toString q.timeout ++ " ms, 0 params: " ++ q.text

end SchemaWalk
