/-! # What can go wrong -/

namespace SchemaWalk

inductive WalkError where
  | invalidSelection (reason : String)
  | invalidStep (reason : String)
  /-- The database refused the query; its message is shown as it is. -/
  | execution (message : String)
  /-- Row number `row` does not have the expected shape. -/
  | decode (row : Nat) (reason : String)
  | timeout (milliseconds : Nat)
  | persistence (reason : String)
  | restore (reason : String)
  deriving DecidableEq, Repr

namespace WalkError

def message : WalkError → String
  | invalidSelection reason => "invalid property selection: " ++ reason
  | invalidStep reason => "invalid step: " ++ reason
  | execution message => message
  | decode row reason => "could not decode row " ++ toString row ++ ": " ++ reason
  | timeout milliseconds => "query timed out after " ++ toString milliseconds ++ " ms"
  | persistence reason => "persistence failure: " ++ reason
  | restore reason => "could not restore walk: " ++ reason

def emptyPropertyName : WalkError := invalidSelection "property name must not be empty"
def emptyNodeLabel : WalkError := invalidStep "node label must not be empty"
def emptyRelationshipType : WalkError := invalidStep "relationship type must not be empty"
def noLabelSelected : WalkError := invalidStep "no label selected"

end WalkError

theorem bind_eq_ok_iff {ε α β : Type} {x : Except ε α} {f : α → Except ε β} {b : β} :
    x >>= f = .ok b ↔ ∃ a, x = .ok a ∧ f a = .ok b := by
  cases x with
  | error e => simp [bind, Except.bind]
  | ok a => simp [bind, Except.bind]

end SchemaWalk
