import SchemaWalk.Text.Reader

/-! # Quoted text

Strings, byte strings and characters. Between double quotes a backslash opens an escape;
the reader takes one character at a time and hands on what each of them means. -/

namespace SchemaWalk.Ron

/-- One unit of quoted text: a character as it stands, a byte or a code point of an escape,
or a line that goes on, which stands for nothing. -/
inductive QuotedUnit where
  | raw (c : Char)
  | byte (value : Nat)
  | scalar (c : Char)
  | fold
  deriving DecidableEq, Repr

inductive QuotedState where
  | plain
  | backslash
  | firstHex
  | secondHex (high : Nat)
  | brace
  | codePoint (count value : Nat)
  | carriage
  | continued
  deriving DecidableEq, Repr

def letterEscape : Char → Option Nat
  | '\'' => some 0x27
  | '"' => some 0x22
  | '\\' => some 0x5c
  | 'n' => some 0x0a
  | 'r' => some 0x0d
  | 't' => some 0x09
  | '0' => some 0x00
  | _ => none

def scalarValue (n : Nat) : Option Char :=
  if n < 0xd800 ∨ (0xdfff < n ∧ n < 0x110000) then some (Char.ofNat n) else none

def isLineBlank (c : Char) : Bool := c == ' ' || c == '\t' || c == '\n' || c == '\r'

def plainStep (c : Char) : QuotedState × Option QuotedUnit :=
  if c = '\\' then (.backslash, none) else (.plain, some (.raw c))

def QuotedState.step (s : QuotedState) (c : Char) : Option (QuotedState × Option QuotedUnit) :=
  match s with
  | .plain => some (plainStep c)
  | .continued => if isLineBlank c then some (.continued, none) else some (plainStep c)
  | .backslash =>
    if c = 'x' then some (.firstHex, none)
    else if c = 'u' then some (.brace, none)
    else if c = '\n' then some (.continued, some .fold)
    else if c = '\r' then some (.carriage, none)
    else (letterEscape c).map fun b => (.plain, some (.byte b))
  | .firstHex => (hexValue c).map fun h => (.secondHex h, none)
  | .secondHex high => (hexValue c).map fun h => (.plain, some (.byte (16 * high + h)))
  | .brace => if c = '\x7b' then some (.codePoint 0 0, none) else none
  | .codePoint count value =>
    if c = '\x7d' then
      if count = 0 then none else (scalarValue value).map fun c => (.plain, some (.scalar c))
    else if count < 6 then
      (hexValue c).map fun h => (.codePoint (count + 1) (16 * value + h), none)
    else none
  | .carriage => if c = '\n' then some (.continued, some .fold) else none

def QuotedState.closes : QuotedState → Bool
  | .plain | .continued => true
  | _ => false

def quotedUnits : QuotedState → Reader (List QuotedUnit)
  | _, [] => none
  | s, c :: cs =>
    if c = '"' ∧ s.closes then some ([], cs)
    else match s.step c with
      | none => none
      | some (s, none) => quotedUnits s cs
      | some (s, some u) => (quotedUnits s cs).map fun (us, rest) => (u :: us, rest)

def utf8Length (lead : Nat) : Nat :=
  if lead < 0x80 then 1
  else if lead < 0xc2 then 0
  else if lead < 0xe0 then 2
  else if lead < 0xf0 then 3
  else if lead < 0xf5 then 4
  else 0

def utf8Char? (bytes : List Nat) : Option Char := do
  let text ← String.fromUTF8? ⟨(bytes.map UInt8.ofNat).toArray⟩
  match text.toList with
  | [c] => some c
  | _ => none

def takeBytes : Nat → List QuotedUnit → Option (List Nat × List QuotedUnit)
  | 0, us => some ([], us)
  | n + 1, .byte b :: us => (takeBytes n us).map fun (bs, us) => (b :: bs, us)
  | _ + 1, _ => none

/-- Text from units. Escaped bytes above ASCII must come in the UTF-8 form of a character,
one right behind the other; `pending` of them have been taken already. -/
def unitsText : Nat → List QuotedUnit → Option (List Char)
  | _, [] => some []
  | pending + 1, _ :: us => unitsText pending us
  | 0, .raw c :: us => (unitsText 0 us).map (c :: ·)
  | 0, .scalar c :: us => (unitsText 0 us).map (c :: ·)
  | 0, .fold :: us => unitsText 0 us
  | 0, .byte b :: us =>
    match takeBytes (utf8Length b - 1) us with
    | none => none
    | some (bs, _) =>
      match utf8Char? (b :: bs) with
      | none => none
      | some c => (unitsText (utf8Length b - 1) us).map (c :: ·)

def stringTail : Reader String := fun cs => do
  let (us, rest) ← quotedUnits .plain cs
  let text ← unitsText 0 us
  return (String.ofList text, rest)

def rawTail (hashes : List Char) : Reader (List Char)
  | [] => none
  | c :: cs =>
    if c = '"' ∧ hashes.isPrefixOf cs then some ([], cs.drop hashes.length)
    else (rawTail hashes cs).map fun (text, rest) => (c :: text, rest)

def rawString : Reader String := fun cs =>
  let hashes := cs.takeWhile (· == '#')
  match cs.dropWhile (· == '#') with
  | '"' :: cs => (rawTail hashes cs).map fun (text, rest) => (String.ofList text, rest)
  | _ => none

def string : Reader String
  | '"' :: cs => stringTail cs
  | 'r' :: cs => rawString cs
  | _ => none

/-- A byte string in either form. Any units are bytes, a code point by its UTF-8 form. -/
def byteString : Reader Unit
  | 'b' :: '"' :: cs => (quotedUnits .plain cs).map fun (_, rest) => ((), rest)
  | 'b' :: 'r' :: cs => (rawString cs).map fun (_, rest) => ((), rest)
  | _ => none

/-! ## Quotes without an end -/

/-- Whether the closing quote is missing. Behind a bad escape any quote will do. -/
def lacksEnd : QuotedState → List Char → Bool
  | _, [] => true
  | s, c :: cs =>
    if c = '"' ∧ s.closes then false
    else match s.step c with
      | none => !(c :: cs).contains '"'
      | some (s, _) => lacksEnd s cs

def rawLacksEnd (cs : List Char) : Bool :=
  match cs.dropWhile (· == '#') with
  | '"' :: text => (rawTail (cs.takeWhile (· == '#')) text).isNone
  | _ => false

def opensWithoutEnd : List Char → Bool
  | '"' :: cs | 'b' :: '"' :: cs => lacksEnd .plain cs
  | 'r' :: cs | 'b' :: 'r' :: cs => rawLacksEnd cs
  | _ => false

/-! ## Single characters -/

def oneUnit : QuotedState → Reader QuotedUnit
  | _, [] => none
  | s, c :: cs =>
    match s.step c with
    | none => none
    | some (_, some u) => some (u, cs)
    | some (s, none) => oneUnit s cs

def apostropheTail (accepts : QuotedUnit → Bool) : Reader Unit := fun cs =>
  match oneUnit .plain cs with
  | some (u, '\'' :: rest) => if accepts u then some ((), rest) else none
  | _ => none

def isCharUnit : QuotedUnit → Bool
  | .raw _ | .scalar _ => true
  | .byte b => b < 0x80
  | .fold => false

def isByteUnit : QuotedUnit → Bool
  | .raw c => c.toNat < 0x80
  | .byte _ => true
  | .scalar _ | .fold => false

def character : Reader Unit
  | '\'' :: cs => apostropheTail isCharUnit cs
  | _ => none

def byte : Reader Unit
  | 'b' :: '\'' :: cs => apostropheTail isByteUnit cs
  | _ => none

end SchemaWalk.Ron
