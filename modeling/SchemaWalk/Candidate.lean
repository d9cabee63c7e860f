import SchemaWalk.Walk

/-! # Candidates

The candidate is the step being composed: a focal label and the filters picked for it.
Without a label it is not ready. -/

namespace SchemaWalk

structure Candidate where
  label : String
  filters : List PropertyFilter
  deriving DecidableEq, Repr

namespace Candidate

def ofLabel (label : String) : Candidate := ⟨label, []⟩

def empty : Candidate := ofLabel ""

instance : Inhabited Candidate := ⟨empty⟩

def isReady (c : Candidate) : Bool := !c.label.isEmpty

def withLabel (_ : Candidate) (label : String) : Candidate := ofLabel label

/-- A filter on a property that has one already takes its place, any other goes last. -/
def putFilter (f : PropertyFilter) : List PropertyFilter → List PropertyFilter
  | [] => [f]
  | g :: rest => if g.name = f.name then f :: rest else g :: putFilter f rest

def withFilter (c : Candidate) (f : PropertyFilter) : Candidate :=
  { c with filters := putFilter f c.filters }

def withoutFilter (c : Candidate) (index : Nat) : Candidate :=
  { c with filters := c.filters.eraseIdx index }

def toNodePick (c : Candidate) : Except WalkError NodePick := NodePick.create c.label c.filters

theorem names_putFilter (f : PropertyFilter) (fs : List PropertyFilter) :
    (putFilter f fs).map (·.name) =
      if f.name ∈ fs.map (·.name) then fs.map (·.name) else fs.map (·.name) ++ [f.name] := by
  induction fs with
  | nil => simp [putFilter]
  | cons g rest ih =>
    rw [putFilter]
    by_cases h : g.name = f.name
    · simp [h]
    · simp only [h, if_false, List.map_cons, List.mem_cons, Ne.symm h, false_or, ih]
      split <;> rfl

end Candidate

end SchemaWalk
