/-! # Arguments

A command line as options, flags and values. Options may stand in any order; a value of its
own behind an option never starts with a hyphen, and an option that does not collect comes
at most once. -/

namespace SchemaWalk.Shell

inductive Refusal where
  | help
  | misuse
  deriving DecidableEq, Repr

/-! ## Single arguments -/

inductive Argument where
  | separator
  | long (name : String) (attached : Option String)
  | short (letters : List Char)
  | word (text : String)
  deriving DecidableEq, Repr

def splitFirst (c : Char) (text : String) : Option (String × String) :=
  let before := text.toList.takeWhile (· ≠ c)
  match text.toList.drop before.length with
  | [] => none
  | _ :: behind => some (String.ofList before, String.ofList behind)

def Argument.of (text : String) : Argument :=
  match text.toList with
  | ['-', '-'] => separator
  | '-' :: '-' :: rest =>
    match splitFirst '=' (String.ofList rest) with
    | some (name, value) => long name (some value)
    | none => long (String.ofList rest) none
  | '-' :: letter :: rest => short (letter :: rest)
  | _ => word text

def refuse : Argument → Refusal
  | .long "help" none => .help
  | .short ('h' :: _) => .help
  | _ => .misuse

/-! ## Arguments of a command -/

inductive OptionKind where
  | flag
  | single
  | repeated
  deriving DecidableEq, Repr

structure Grammar where
  options : List (String × OptionKind)
  valueCount : Nat
  takes : String → Bool

namespace Grammar

def kind (g : Grammar) (name : String) : Option OptionKind := g.options.lookup name

end Grammar

structure Given where
  options : List (String × String)
  values : List String
  deriving DecidableEq, Repr

namespace Given

def nothing : Given := ⟨[], []⟩

def has (x : Given) (name : String) : Bool := x.options.any (·.1 == name)

def all (x : Given) (name : String) : List String :=
  (x.options.filter (·.1 == name)).map (·.2)

def first? (x : Given) (name : String) : Option String := x.options.lookup name

def addOption (x : Given) (kind : OptionKind) (name value : String) : Except Refusal Given :=
  if kind ≠ .repeated ∧ x.has name then .error .misuse
  else .ok { x with options := x.options ++ [(name, value)] }

/-- Adds a value. One that the command does not take ends the reading, even before a wish for
help. -/
def addValue (x : Given) (g : Grammar) (value : String) : Except Refusal Given :=
  if x.values.length < g.valueCount ∧ g.takes value then
    .ok { x with values := x.values ++ [value] }
  else .error .misuse

end Given

def takeOption (g : Grammar) (x : Given) (arg : Argument) :
    Except Refusal (Given × Option String) :=
  match arg with
  | .long name attached =>
    match g.kind name, attached with
    | some .flag, none => (x.addOption .flag name "").map fun x => (x, none)
    | some .single, some value => (x.addOption .single name value).map fun x => (x, none)
    | some .repeated, some value => (x.addOption .repeated name value).map fun x => (x, none)
    | some .single, none | some .repeated, none => .ok (x, some name)
    | _, _ => .error (refuse arg)
  | _ => .error (refuse arg)

/-- Reads the arguments of a command. `waiting` is the option whose value comes next: it must
be a word. -/
def scan (g : Grammar) (x : Given) : Option String → List String → Except Refusal Given
  | none, [] => .ok x
  | some _, [] => .error .misuse
  | some name, text :: rest =>
    match Argument.of text, g.kind name with
    | .word value, some kind =>
      match x.addOption kind name value with
      | .ok x => scan g x none rest
      | .error e => .error e
    | _, _ => .error .misuse
  | none, text :: rest =>
    match Argument.of text with
    | .separator => rest.foldlM (fun x value => x.addValue g value) x
    | .word value =>
      match x.addValue g value with
      | .ok x => scan g x none rest
      | .error e => .error e
    | arg =>
      match takeOption g x arg with
      | .ok (x, waiting) => scan g x waiting rest
      | .error e => .error e

end SchemaWalk.Shell
