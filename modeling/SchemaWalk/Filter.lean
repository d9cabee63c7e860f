import SchemaWalk.Error
import SchemaWalk.Table

/-! # Property filters

A filter asks for one property to have one value. The value is always kept as text. A
filter set is what a relationship's property map asks for, in the order of the names; it
serves as a key, so it is ordered. -/

namespace SchemaWalk

inductive Operator where
  | equality
  deriving DecidableEq, Repr

def Operator.symbol : Operator → String
  | .equality => "="

instance : Ord Operator := ⟨fun _ _ => .eq⟩

structure PropertyFilter where
  name : String
  operator : Operator
  value : String
  deriving DecidableEq, Repr

namespace PropertyFilter

def create (name value : String) : Except WalkError PropertyFilter :=
  if name.isEmpty then .error .emptyPropertyName else .ok ⟨name, .equality, value⟩

def validate (f : PropertyFilter) : Except WalkError Unit :=
  if f.name.isEmpty then .error .emptyPropertyName else .ok ()

def render (f : PropertyFilter) : String :=
  f.name ++ " " ++ f.operator.symbol ++ " " ++ f.value

/-- By name, then operator, then value, each by code points. -/
def order : PropertyFilter → PropertyFilter → Ordering :=
  compareLex (compareOn name) (compareLex (compareOn operator) (compareOn value))

instance : Ord PropertyFilter := ⟨order⟩

end PropertyFilter

instance : Std.TransOrd Operator where
  eq_swap := rfl
  isLE_trans _ _ := rfl

instance : Std.LawfulEqOrd Operator where
  eq_of_compare {a b} _ := by cases a; cases b; rfl

instance : Std.TransOrd PropertyFilter :=
  inferInstanceAs (Std.TransCmp (compareLex (compareOn PropertyFilter.name)
    (compareLex (compareOn PropertyFilter.operator) (compareOn PropertyFilter.value))))

theorem PropertyFilter.eq_of_order {a b : PropertyFilter} (h : order a b = .eq) : a = b := by
  obtain ⟨hn, ho, hv⟩ : compare a.name b.name = .eq ∧ compare a.operator b.operator = .eq ∧
      compare a.value b.value = .eq := by
    simpa [order, compareLex, compareOn, Ordering.then_eq_eq] using h
  rcases a with ⟨n, o, v⟩
  rcases b with ⟨n', o', v'⟩
  obtain rfl : n = n' := Std.LawfulEqOrd.eq_of_compare hn
  obtain rfl : o = o' := Std.LawfulEqOrd.eq_of_compare ho
  obtain rfl : v = v' := Std.LawfulEqOrd.eq_of_compare hv
  rfl

instance : Std.LawfulEqOrd PropertyFilter where
  eq_of_compare := PropertyFilter.eq_of_order

def renderFilters (fs : List PropertyFilter) : String :=
  ", ".intercalate (fs.map PropertyFilter.render)

def validateFilters : List PropertyFilter → Except WalkError Unit
  | [] => .ok ()
  | f :: rest =>
    match f.validate with
    | .ok () => validateFilters rest
    | .error e => .error e

abbrev Properties := Table String String

structure FilterSet where
  filters : List PropertyFilter
  deriving DecidableEq, Repr

namespace FilterSet

/-- An empty name cannot form a filter and is left out. -/
def ofProperties (props : Properties) : FilterSet :=
  ⟨(props.entries.filter (fun e => !e.1.isEmpty)).map (fun e => ⟨e.1, .equality, e.2⟩)⟩

def isEmpty (s : FilterSet) : Bool := s.filters.isEmpty

def render (s : FilterSet) : String := renderFilters s.filters

instance : Ord FilterSet := ⟨compareOn filters⟩

end FilterSet

instance : Std.TransOrd FilterSet :=
  inferInstanceAs (Std.TransCmp (compareOn FilterSet.filters))

instance : Std.LawfulEqOrd FilterSet where
  eq_of_compare {a b} h := by
    cases a; cases b
    exact congrArg FilterSet.mk (Std.LawfulEqOrd.eq_of_compare (α := List PropertyFilter) h)

end SchemaWalk
