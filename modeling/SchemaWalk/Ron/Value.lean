import SchemaWalk.Text.Escape

/-! # RON values

The values of the notation as far as a reader of walks has to tell them apart, and
how they are written: every member on a line of its own, four blanks deeper, with a comma
behind it. -/

namespace SchemaWalk

inductive RonValue where
  | string (content : String)
  | unit (name : String)
  /-- A number, a range, a character, a byte or a byte string, as it stands. -/
  | scalar (source : List Char)
  | tuple (name : Option String) (items : List RonValue)
  | record (name : Option String) (fields : List (String × RonValue))
  | list (items : List RonValue)
  | map (entries : List (RonValue × RonValue))
  deriving Inhabited, Repr

namespace RonValue

def newline (level : Nat) : List Char := '\n' :: List.replicate (4 * level) ' '

def renderName : Option String → List Char
  | some name => name.toList
  | none => []

def bracket (level : Nat) (opening closing : Char) (members : List Char) : List Char :=
  if members.isEmpty then [opening, closing]
  else opening :: (members ++ newline level ++ [closing])

mutual

def render (level : Nat) : RonValue → List Char
  | .string content => (Text.quote content).toList
  | .unit name => name.toList
  | .scalar source => source
  | .tuple name items => renderName name ++ bracket level '(' ')' (renderItems (level + 1) items)
  | .record name fields =>
    renderName name ++ bracket level '(' ')' (renderFields (level + 1) fields)
  | .list items => bracket level '[' ']' (renderItems (level + 1) items)
  | .map entries => bracket level '\x7b' '\x7d' (renderEntries (level + 1) entries)

def renderItems (level : Nat) : List RonValue → List Char
  | [] => []
  | item :: rest => newline level ++ item.render level ++ ',' :: renderItems level rest

def renderFields (level : Nat) : List (String × RonValue) → List Char
  | [] => []
  | (key, value) :: rest =>
    newline level ++ key.toList ++ ':' :: ' ' :: (value.render level) ++
      ',' :: renderFields level rest

def renderEntries (level : Nat) : List (RonValue × RonValue) → List Char
  | [] => []
  | (key, value) :: rest =>
    newline level ++ key.render level ++ ':' :: ' ' :: (value.render level) ++
      ',' :: renderEntries level rest

end

end RonValue

end SchemaWalk
