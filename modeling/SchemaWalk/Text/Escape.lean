import SchemaWalk.Text.Characters

/-! # Trimmed and escaped text -/

namespace SchemaWalk.Text

/-! ## Blanks

The characters with the property White_Space, and trimming by them. -/

def isBlank (c : Char) : Bool :=
  let n := c.toNat
  (0x9 ≤ n && n ≤ 0xd) || n == 0x20 || n == 0x85 || n == 0xa0 || n == 0x1680 ||
    (0x2000 ≤ n && n ≤ 0x200a) || n == 0x2028 || n == 0x2029 || n == 0x202f || n == 0x205f ||
    n == 0x3000

def trimChars (cs : List Char) : List Char :=
  ((cs.dropWhile isBlank).reverse.dropWhile isBlank).reverse

def trim (s : String) : String := String.ofList (trimChars s.toList)

/-! ## Escapes

A character is written raw, behind a backslash, or as `\u{…}` with its code point in
hexadecimal. What is written this way is all printable and stands on its own. -/

def hexDigits (n : Nat) : List Char := Nat.toDigits 16 n

def unicodeEscape (c : Char) : List Char :=
  '\\' :: 'u' :: '\x7b' :: (hexDigits c.toNat ++ ['\x7d'])

def shortEscape : Char → Option Char
  | '\x00' => some '0'
  | '\t' => some 't'
  | '\r' => some 'r'
  | '\n' => some 'n'
  | '\'' => some '\''
  | '"' => some '"'
  | '\\' => some '\\'
  | _ => none

def escapeChar (c : Char) : List Char :=
  match shortEscape c with
  | some letter => ['\\', letter]
  | none => if isGraphemeExtend c || isUnprintable c then unicodeEscape c else [c]

def escape (cs : List Char) : List Char := cs.flatMap escapeChar

def quote (s : String) : String := String.ofList ('"' :: (escape s.toList ++ ['"']))

/-- Inside a message an apostrophe needs no backslash. -/
def messageChar (c : Char) : List Char := if c = '\'' then [c] else escapeChar c

def messageQuote (s : String) : String :=
  String.ofList ('"' :: (s.toList.flatMap messageChar ++ ['"']))

end SchemaWalk.Text
