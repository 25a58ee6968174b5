import BlockPuzzle.Json.Value

/-!
# Printing JSON

`JsonValue.pretty` writes a value over several lines, two blanks deeper for each level. Strings are
escaped as little as JSON allows.
-/

namespace BlockPuzzle

namespace JsonValue

/-- A hexadecimal digit in lower case. -/
def hexDigit (n : Nat) : Char :=
  if n < 10 then Char.ofNat (48 + n) else Char.ofNat (87 + n)

/-- A character inside a string literal. -/
def escape (c : Char) : List Char :=
  match c with
  | '"' => ['\\', '"']
  | '\\' => ['\\', '\\']
  | '\x08' => ['\\', 'b']
  | '\x0c' => ['\\', 'f']
  | '\n' => ['\\', 'n']
  | '\r' => ['\\', 'r']
  | '\t' => ['\\', 't']
  | c =>
    if c.toNat < 0x20 then ['\\', 'u', '0', '0', hexDigit (c.toNat / 16), hexDigit (c.toNat % 16)]
    else [c]

/-- A string literal. -/
def quote (s : String) : List Char :=
  '"' :: s.toList.flatMap escape ++ ['"']

/-- A string literal that stands for no text. -/
def garbledText : List Char :=
  ['"', '\\', 'u', 'd', '8', '0', '0', '"']

/-- A number that is not written as a whole number. -/
def inexactText : List Char :=
  ['-', '0']

/-- The start of a line at a level. -/
def newline (level : Nat) : List Char :=
  '\n' :: List.replicate (2 * level) ' '

/-- The literal of a key. -/
def quoteKey : Option String → List Char
  | some key => quote key
  | none => garbledText

mutual

/-- A value at a level. -/
def prettyAt (level : Nat) : JsonValue → List Char
  | .null => ['n', 'u', 'l', 'l']
  | .bool true => ['t', 'r', 'u', 'e']
  | .bool false => ['f', 'a', 'l', 's', 'e']
  | .integer value => (toString value).toList
  | .inexact => inexactText
  | .string value => quote value
  | .garbled => garbledText
  | .array [] => ['[', ']']
  | .array (item :: items) =>
    '[' :: newline (level + 1) ++ prettyAt (level + 1) item ++ prettyItems (level + 1) items ++
      newline level ++ [']']
  | .object [] => ['\x7b', '\x7d']
  | .object (field :: fields) =>
    '\x7b' :: newline (level + 1) ++ prettyField (level + 1) field ++ prettyFields (level + 1) fields ++
      newline level ++ ['\x7d']

/-- Further items of an array, each behind a comma. -/
def prettyItems (level : Nat) : List JsonValue → List Char
  | [] => []
  | item :: items => ',' :: newline level ++ prettyAt level item ++ prettyItems level items

/-- A field of an object. -/
def prettyField (level : Nat) : Option String × JsonValue → List Char
  | (key, value) => quoteKey key ++ [':', ' '] ++ prettyAt level value

/-- Further fields of an object, each behind a comma. -/
def prettyFields (level : Nat) : List (Option String × JsonValue) → List Char
  | [] => []
  | field :: fields => ',' :: newline level ++ prettyField level field ++ prettyFields level fields

end

/-- A value over several lines. -/
def pretty (value : JsonValue) : String :=
  String.ofList (prettyAt 0 value)

end JsonValue

end BlockPuzzle
