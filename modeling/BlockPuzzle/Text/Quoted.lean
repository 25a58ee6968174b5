import BlockPuzzle.Text.Hidden

/-!
# Quoted names

Messages show the names of files in double quotes. Double quotes, backslashes and line breaks in them are
escaped with a backslash, and characters that do not show by their code point.
-/

namespace BlockPuzzle.Text

/-- A code point in hexadecimal between braces. -/
def escapeCode (n : Nat) : List Char :=
  ['\\', 'u', '\x7b'] ++ Nat.toDigits 16 n ++ ['\x7d']

/-- A character between quotes. -/
def escapeQuoted (c : Char) : List Char :=
  if c.toNat = 0 then ['\\', '0']
  else if c = '\t' then ['\\', 't']
  else if c = '\r' then ['\\', 'r']
  else if c = '\n' then ['\\', 'n']
  else if c = '\\' ∨ c = '"' then ['\\', c]
  else if isHidden c then escapeCode c.toNat
  else [c]

/-- A name between quotes. -/
def quoted (s : String) : String :=
  String.ofList ('"' :: s.toList.flatMap escapeQuoted ++ ['"'])

end BlockPuzzle.Text
