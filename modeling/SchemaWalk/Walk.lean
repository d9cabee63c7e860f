import SchemaWalk.Step

/-! # Walks

A walk is the ordered list of hops committed so far. It is a value: every change makes a
new walk. -/

namespace SchemaWalk

structure Walk where
  steps : List Step
  deriving DecidableEq, Repr

namespace Walk

def empty : Walk := ⟨[]⟩

instance : Inhabited Walk := ⟨empty⟩

def length (w : Walk) : Nat := w.steps.length

def isEmpty (w : Walk) : Bool := w.steps.isEmpty

def append (w : Walk) (s : Step) : Walk := ⟨w.steps ++ [s]⟩

/-- Later steps depend on earlier choices, so everything from `index` on goes. -/
def truncate (w : Walk) (index : Nat) : Walk := ⟨w.steps.take index⟩

def validateSteps : List Step → Except WalkError Unit
  | [] => .ok ()
  | s :: rest =>
    match s.validate with
    | .ok () => validateSteps rest
    | .error e => .error e

def validate (w : Walk) : Except WalkError Unit := validateSteps w.steps

def render (w : Walk) : List String := w.steps.map Step.render

@[simp] theorem length_append (w : Walk) (s : Step) : (w.append s).length = w.length + 1 := by
  simp [append, length]

@[simp] theorem truncate_zero (w : Walk) : w.truncate 0 = empty := by
  simp [truncate, empty]

theorem truncate_append_length (w : Walk) (s : Step) : (w.append s).truncate w.length = w := by
  simp [truncate, append, length]

end Walk

end SchemaWalk
