import Mathlib.Tactic.Lemma
import BlockPuzzle.Form.Reader

/-!
# Written forms

A text writes forms if it consists of their tokens, in order, with blanks and comments before, between
and behind them (`Form.Written`). Only between two atoms there has to be something. Quotes and
backslashes in a quoted text are escaped, and whole numbers are written in decimal digits, with more
zeros in front and a sign if one likes. `Form.Printable` says which forms can be written at all, and
`Form.write` is one of the texts that write them.
-/

namespace BlockPuzzle

/-! ## Lexemes -/

/-- The characters between the quotes of a quoted text: each one stands for itself, or is escaped.
Quotes and backslashes have to be escaped. -/
inductive Quotes : List Char → List Char → Prop where
  | nil :
    Quotes [] []
  | plain {c value written} :
    c ≠ '"' →
    c ≠ '\\' →
    Quotes value written →
    Quotes (c :: value) (c :: written)
  | escaped {c d value written} :
    Token.unescape? d = some c →
    Quotes value written →
    Quotes (c :: value) ('\\' :: d :: written)

namespace Token

/-- The characters that make a token. -/
inductive Lexeme : Token → List Char → Prop where
  | opening :
    Lexeme .opening ['(']
  | closing :
    Lexeme .closing [')']
  | text {value written} :
    Quotes value.toList written →
    Lexeme (.text value) ('"' :: written ++ ['"'])
  | atom {name} :
    name ≠ "" →
    (∀ c ∈ name.toList, isAtomChar c) →
    Lexeme (.atom name) name.toList

/-- A character as it is written between quotes. -/
def escape (c : Char) : List Char :=
  if c = '"' ∨ c = '\\' then ['\\', c] else [c]

/-- A token as it is written. -/
def write : Token → List Char
  | opening => ['(']
  | closing => [')']
  | text value => '"' :: value.toList.flatMap escape ++ ['"']
  | atom name => name.toList

/-- Whether a token is an atom. -/
def isAtom : Token → Bool
  | atom _ => true
  | _ => false

end Token

/-! ## Layouts -/

/-- Blanks and comments; each comment ends with its line. -/
inductive Trivia : List Char → Prop where
  | nil :
    Trivia []
  | blank {c gap} :
    Text.isBlank c = true →
    Trivia gap →
    Trivia (c :: gap)
  | comment {words gap} :
    '\n' ∉ words →
    Trivia gap →
    Trivia (';' :: words ++ '\n' :: gap)

/-- Nothing, or a comment in a line that does not end. -/
inductive LastComment : List Char → Prop where
  | none :
    LastComment []
  | some {words} :
    '\n' ∉ words →
    LastComment (';' :: words)

/-- A text consists of tokens with trivia around them. Something stands between two atoms; `behind`
tells whether there is an atom right in front of the text. -/
inductive Layout : Bool → List Token → List Char → Prop where
  | ending {behind gap comment} :
    Trivia gap →
    LastComment comment →
    Layout behind [] (gap ++ comment)
  | token {behind gap token lexeme tokens text} :
    Trivia gap →
    (behind = true → token.isAtom = true → gap ≠ []) →
    token.Lexeme lexeme →
    Layout token.isAtom tokens text →
    Layout behind (token :: tokens) (gap ++ (lexeme ++ text))

namespace Form

/-! ## Forms -/

/-- A text is taken for a number if it consists of decimal digits, with a sign or without one. -/
def IsNumeric (name : List Char) : Prop :=
  ∃ sign digits, name = sign ++ digits ∧ (sign = [] ∨ sign = ['+'] ∨ sign = ['-']) ∧
    digits ≠ [] ∧ ∀ d ∈ digits, d.isDigit

/-- A name that is read as a symbol. -/
structure IsSymbolName (name : String) : Prop where
  nonempty : name ≠ ""
  chars : ∀ c ∈ name.toList, Token.isAtomChar c
  ne_true : name ≠ "true"
  ne_false : name ≠ "false"
  notNumeric : ¬ IsNumeric name.toList

/-- A form can be written: its lists are nested at most `depth` deep, its integers fit a signed word
of 64 bits, and its symbols are not taken for anything else. -/
inductive Printable : Nat → Form → Prop where
  | symbol {depth name} :
    IsSymbolName name →
    Printable depth (.symbol name)
  | text {depth value} :
    Printable depth (.text value)
  | integer {depth n} :
    -9223372036854775808 ≤ n →
    n ≤ 9223372036854775807 →
    Printable depth (.integer n)
  | boolean {depth value} :
    Printable depth (.boolean value)
  | list {depth items} :
    (∀ item ∈ items, Printable depth item) →
    Printable (depth + 1) (.list items)

/-- A sign that may stand in front of the digits of a number. -/
inductive IsSign : Int → List Char → Prop where
  | none {n} :
    0 ≤ n →
    IsSign n []
  | plus {n} :
    0 ≤ n →
    IsSign n ['+']
  | minus {n} :
    n ≤ 0 →
    IsSign n ['-']

/-- A name spells a form that is written as an atom. -/
inductive Spells : String → Form → Prop where
  | symbol {name} :
    Spells name (.symbol name)
  | yes :
    Spells "true" (.boolean true)
  | no :
    Spells "false" (.boolean false)
  | integer {name n sign zeros} :
    IsSign n sign →
    name.toList = sign ++ (List.replicate zeros '0' ++ Nat.toDigits 10 n.natAbs) →
    Spells name (.integer n)

/-- Forms taken apart into tokens. -/
inductive Tokens : List Form → List Token → Prop where
  | nil :
    Tokens [] []
  | atom {name form forms tokens} :
    Spells name form →
    Tokens forms tokens →
    Tokens (form :: forms) (.atom name :: tokens)
  | text {value forms tokens} :
    Tokens forms tokens →
    Tokens (.text value :: forms) (.text value :: tokens)
  | list {items forms inner tokens} :
    Tokens items inner →
    Tokens forms tokens →
    Tokens (.list items :: forms) (.opening :: (inner ++ .closing :: tokens))

/-- A text writes a list of forms. -/
def Written (forms : List Form) (text : List Char) : Prop :=
  ∃ tokens, Tokens forms tokens ∧ Layout false tokens text

/-! ## A text for all forms that can be written -/

/-- The shortest way to write a number. -/
def numeral (n : Int) : String :=
  String.ofList ((if n < 0 then ['-'] else []) ++ Nat.toDigits 10 n.natAbs)

mutual

/-- The tokens of a form. -/
def tokens : Form → List Token
  | symbol name => [.atom name]
  | text value => [.text value]
  | integer n => [.atom (numeral n)]
  | boolean value => [.atom (if value then "true" else "false")]
  | list items => .opening :: (tokensOf items ++ [.closing])

/-- The tokens of a list of forms. -/
def tokensOf : List Form → List Token
  | [] => []
  | form :: forms => form.tokens ++ tokensOf forms

end

/-- Writes forms with a blank in front of each token. -/
def write (forms : List Form) : String :=
  String.ofList ((tokensOf forms).flatMap fun token => ' ' :: token.write)

end Form

end BlockPuzzle
