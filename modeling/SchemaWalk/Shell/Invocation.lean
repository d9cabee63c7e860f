import SchemaWalk.Decimal.Numeral
import SchemaWalk.Shell.Argument

/-! # Invocations

The commands of the shell and how they are read from a command line. -/

namespace SchemaWalk.Shell

inductive Command where
  | show
  | push (label typeName : String) (inbound : Bool) (nodeFilters relationshipFilters : List String)
  | pop (index : Nat)
  | clear
  | queries (label : String) (filters : List String) (property : Option String)
  | overview
  deriving DecidableEq, Repr

structure Invocation where
  storeDir : Option String
  command : Command
  deriving DecidableEq, Repr

/-- A whole number of at most 64 bits, a plus in front or not. -/
def index? (text : String) : Option Nat :=
  let digits := match text.toList with
    | '+' :: rest => rest
    | rest => rest
  if digits.isEmpty || !digits.all Char.isDigit then none
  else if Decimal.digitsValue digits < UInt64.size then some (Decimal.digitsValue digits)
  else none

def Grammar.ofOptions (options : List (String × OptionKind)) : Grammar :=
  ⟨options, 0, fun _ => false⟩

def plainGrammar : Grammar := .ofOptions []

def pushGrammar : Grammar :=
  .ofOptions [("label", .single), ("type", .single), ("inbound", .flag),
    ("node-filter", .repeated), ("rel-filter", .repeated)]

def popGrammar : Grammar := ⟨[], 1, fun value => (index? value).isSome⟩

def queriesGrammar : Grammar :=
  .ofOptions [("label", .single), ("filter", .repeated), ("property", .single)]

def required : Option String → Except Refusal String
  | some value => .ok value
  | none => .error .misuse

def readPush (x : Given) : Except Refusal Command := do
  let label ← required (x.first? "label")
  let typeName ← required (x.first? "type")
  return .push label typeName (x.has "inbound") (x.all "node-filter") (x.all "rel-filter")

def readPop (x : Given) : Except Refusal Command := do
  match index? (← required x.values.head?) with
  | some index => return .pop index
  | none => throw .misuse

def readQueries (x : Given) : Except Refusal Command := do
  let label ← required (x.first? "label")
  return .queries label (x.all "filter") (x.first? "property")

def commandNamed : String → Option (Grammar × (Given → Except Refusal Command))
  | "show" => some (plainGrammar, fun _ => .ok .show)
  | "push" => some (pushGrammar, readPush)
  | "pop" => some (popGrammar, readPop)
  | "clear" => some (plainGrammar, fun _ => .ok .clear)
  | "queries" => some (queriesGrammar, readQueries)
  | "overview" => some (plainGrammar, fun _ => .ok .overview)
  | _ => none

/-- Help can be asked for on the shell and on one command. -/
def refuseTopic : List String → Refusal
  | [] => .help
  | [topic] => if topic = "help" ∨ (commandNamed topic).isSome then .help else .misuse
  | _ => .misuse

def shellGrammar : Grammar := .ofOptions [("store-dir", .single)]

def scanShell (x : Given) : Option String → List String → Except Refusal Invocation
  | _, [] => .error .misuse
  | some name, text :: rest =>
    match Argument.of text with
    | .word value =>
      match x.addOption .single name value with
      | .ok x => scanShell x none rest
      | .error e => .error e
    | _ => .error .misuse
  | none, text :: rest =>
    match Argument.of text with
    | .word "help" => .error (refuseTopic rest)
    | .word name =>
      match commandNamed name with
      | some (g, read) =>
        match scan g .nothing none rest with
        | .ok given => (read given).map fun command => ⟨x.first? "store-dir", command⟩
        | .error e => .error e
      | none => .error .misuse
    | arg =>
      match takeOption shellGrammar x arg with
      | .ok (x, waiting) => scanShell x waiting rest
      | .error e => .error e

def Invocation.ofArguments (arguments : List String) : Except Refusal Invocation :=
  scanShell .nothing none arguments

end SchemaWalk.Shell
