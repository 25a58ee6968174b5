import BlockPuzzle.Form.Reader
import BlockPuzzle.Text.Glyph

/-!
# JSON tokens

`JsonToken.next?` reads the first token of a JSON text. Numbers and strings must follow the grammar of
JSON to the letter: no leading zeros, no plus sign, no raw control characters, no unknown escapes.
-/

namespace BlockPuzzle

open Text (Glyph)

/-- The smallest pieces of a JSON text; a string literal that stands for no text has none. -/
inductive JsonToken where
  | openArray
  | closeArray
  | openObject
  | closeObject
  | comma
  | colon
  | null
  | bool (value : Bool)
  | integer (value : Int)
  | inexact
  | string (value : Option String)
  deriving DecidableEq

namespace JsonToken

/-! ## Strings -/

/-- The characters of a string literal read so far, newest first, the first half of a surrogate pair if
one waits for its second half, and whether all of it stands for text. -/
structure Spelling where
  chars : List Char
  half : Option Nat
  sound : Bool

namespace Spelling

/-- Nothing has been read. -/
def empty : Spelling :=
  ⟨[], none, true⟩

/-- Adds a character; a half that waits is left alone for good. -/
def add (spelling : Spelling) (c : Char) : Spelling :=
  ⟨c :: spelling.chars, none, spelling.sound && spelling.half.isNone⟩

/-- Adds something that stands for no text. -/
def spoil (spelling : Spelling) : Spelling :=
  { spelling with sound := false }

/-- Adds a code unit of 16 bits: a character, or one half of a surrogate pair. -/
def addUnit (spelling : Spelling) (unit : Nat) : Spelling :=
  let isFirst := 0xd800 ≤ unit && unit < 0xdc00
  let isSecond := 0xdc00 ≤ unit && unit < 0xe000
  match spelling.half with
  | some first =>
    if isSecond then
      let code := 0x10000 + (first - 0xd800) * 0x400 + (unit - 0xdc00)
      ⟨Char.ofNat code :: spelling.chars, none, spelling.sound⟩
    else { spelling with half := none, sound := false }
  | none =>
    if isFirst then { spelling with half := some unit }
    else if isSecond then spelling.spoil
    else spelling.add (Char.ofNat unit)

/-- The text, if it is one. -/
def text? (spelling : Spelling) : Option String :=
  if spelling.sound && spelling.half.isNone then some (String.ofList spelling.chars.reverse) else none

end Spelling

/-- Value of a hexadecimal digit. -/
def hexValue? (c : Char) : Option Nat :=
  if '0' ≤ c ∧ c ≤ '9' then some (c.toNat - 48)
  else if 'a' ≤ c ∧ c ≤ 'f' then some (c.toNat - 87)
  else if 'A' ≤ c ∧ c ≤ 'F' then some (c.toNat - 55)
  else none

/-- Value of four hexadecimal digits. -/
def unitValue? (a b c d : Char) : Option Nat := do
  let a ← hexValue? a
  let b ← hexValue? b
  let c ← hexValue? c
  let d ← hexValue? d
  return ((a * 16 + b) * 16 + c) * 16 + d

/-- The character that a backslash and `c` stand for. -/
def unescape? (c : Char) : Option Char :=
  match c with
  | '"' => some '"'
  | '\\' => some '\\'
  | '/' => some '/'
  | 'b' => some '\x08'
  | 'f' => some '\x0c'
  | 'n' => some '\n'
  | 'r' => some '\r'
  | 't' => some '\t'
  | _ => none

/-- Reads a string literal behind its opening quote. -/
def scanString (spelling : Spelling) : List Glyph → Option (Option String × List Glyph)
  | [] => none
  | none :: rest => scanString spelling.spoil rest
  | some '"' :: rest => some (spelling.text?, rest)
  | some '\\' :: some 'u' :: some a :: some b :: some c :: some d :: rest =>
    match unitValue? a b c d with
    | some unit => scanString (spelling.addUnit unit) rest
    | none => none
  | some '\\' :: some e :: rest =>
    match unescape? e with
    | some c => scanString (spelling.add c) rest
    | none => none
  | some '\\' :: _ => none
  | some c :: rest => if c.toNat < 0x20 then none else scanString (spelling.add c) rest

/-! ## Numbers -/

/-- Takes the decimal digits from the front. -/
def takeDigits : List Glyph → List Char × List Glyph
  | some c :: rest =>
    if c.isDigit then
      let (digits, rest) := takeDigits rest
      (c :: digits, rest)
    else ([], some c :: rest)
  | rest => ([], rest)

/-- Skips the fraction of a number, if there is one, and tells whether there was. -/
def skipFraction : List Glyph → Option (Bool × List Glyph)
  | some '.' :: rest =>
    let (digits, rest) := takeDigits rest
    if digits.isEmpty then none else some (true, rest)
  | rest => some (false, rest)

/-- Skips the sign of an exponent. -/
def skipSign : List Glyph → List Glyph
  | some '+' :: rest => rest
  | some '-' :: rest => rest
  | rest => rest

/-- Skips the digits of an exponent. -/
def skipExponentDigits (rest : List Glyph) : Option (Bool × List Glyph) :=
  let (digits, rest) := takeDigits (skipSign rest)
  if digits.isEmpty then none else some (true, rest)

/-- Skips the exponent of a number, if there is one, and tells whether there was. -/
def skipExponent : List Glyph → Option (Bool × List Glyph)
  | some 'e' :: rest => skipExponentDigits rest
  | some 'E' :: rest => skipExponentDigits rest
  | rest => some (false, rest)

/-- Reads a number behind its sign. Minus zero is not a whole number. -/
def scanNumber (minus : Bool) (text : List Glyph) : Option (JsonToken × List Glyph) :=
  let (digits, rest) := takeDigits text
  if digits.isEmpty || (digits.head? == some '0' && digits.length != 1) then none
  else do
    let (fraction, rest) ← skipFraction rest
    let (exponent, rest) ← skipExponent rest
    let value := digitsValue digits
    let token :=
      if fraction || exponent || (minus && value == 0) then inexact
      else if minus then integer (-value) else integer value
    return (token, rest)

/-! ## Tokens -/

/-- The blanks of JSON. -/
def isBlank (c : Char) : Bool :=
  c == ' ' || c == '\t' || c == '\n' || c == '\r'

/-- Skips blanks. -/
def skipBlanks : List Glyph → List Glyph
  | some c :: rest => if isBlank c then skipBlanks rest else some c :: rest
  | rest => rest

/-- Reads the token that a text without leading blanks starts with. -/
def scan : List Glyph → Option (JsonToken × List Glyph)
  | some '[' :: rest => some (openArray, rest)
  | some ']' :: rest => some (closeArray, rest)
  | some '\x7b' :: rest => some (openObject, rest)
  | some '\x7d' :: rest => some (closeObject, rest)
  | some ',' :: rest => some (comma, rest)
  | some ':' :: rest => some (colon, rest)
  | some '"' :: rest => (scanString .empty rest).map fun (value, rest) => (string value, rest)
  | some 'n' :: some 'u' :: some 'l' :: some 'l' :: rest => some (null, rest)
  | some 't' :: some 'r' :: some 'u' :: some 'e' :: rest => some (bool true, rest)
  | some 'f' :: some 'a' :: some 'l' :: some 's' :: some 'e' :: rest => some (bool false, rest)
  | some '-' :: rest => scanNumber true rest
  | text => scanNumber false text

/-- Reads one token; the outer option is empty at the end of the text, the inner one where no token can
be read. -/
def next? (text : List Glyph) : Option (Option (JsonToken × List Glyph)) :=
  match skipBlanks text with
  | [] => none
  | rest => some (scan rest)

/-! ## Reading a token leaves less text -/

/-- Reading a string does not add to the text ahead. -/
theorem length_scanString_le {spelling : Spelling} {text rest : List Glyph} {value : Option String}
    (h : scanString spelling text = some (value, rest)) : rest.length ≤ text.length := by
  fun_induction scanString spelling text <;> simp_all <;> omega

/-- Digits and what follows them make up the text. -/
theorem length_takeDigits (text : List Glyph) :
    (takeDigits text).1.length + (takeDigits text).2.length = text.length := by
  fun_induction takeDigits text <;> simp_all
  omega

/-- Skipping a fraction does not add to the text. -/
theorem length_skipFraction_le {text rest : List Glyph} {found : Bool}
    (h : skipFraction text = some (found, rest)) : rest.length ≤ text.length := by
  unfold skipFraction at h
  split at h
  · next tail =>
    have := length_takeDigits tail
    simp only at h
    split at h
    · cases h
    · cases h; simp only [List.length_cons]; omega
  · cases h; exact Nat.le_refl _

/-- Nor does skipping a sign. -/
theorem length_skipSign_le (text : List Glyph) : (skipSign text).length ≤ text.length := by
  unfold skipSign
  split <;> simp

/-- Nor does skipping the digits of an exponent. -/
theorem length_skipExponentDigits_le {text rest : List Glyph} {found : Bool}
    (h : skipExponentDigits text = some (found, rest)) : rest.length ≤ text.length := by
  have hsign := length_skipSign_le text
  have := length_takeDigits (skipSign text)
  unfold skipExponentDigits at h
  simp only at h
  split at h
  · cases h
  · cases h; omega

/-- Nor does skipping an exponent. -/
theorem length_skipExponent_le {text rest : List Glyph} {found : Bool}
    (h : skipExponent text = some (found, rest)) : rest.length ≤ text.length := by
  unfold skipExponent at h
  split at h
  · have := length_skipExponentDigits_le h; simp only [List.length_cons]; omega
  · have := length_skipExponentDigits_le h; simp only [List.length_cons]; omega
  · cases h; exact Nat.le_refl _

/-- A number has at least one digit. -/
theorem length_scanNumber_lt {minus : Bool} {text rest : List Glyph} {token : JsonToken}
    (h : scanNumber minus text = some (token, rest)) : rest.length < text.length := by
  have hdigits := length_takeDigits text
  unfold scanNumber at h
  simp only at h
  split at h
  · cases h
  · next hnonempty =>
    have hpos : 0 < (takeDigits text).1.length := by
      match hd : (takeDigits text).1 with
      | [] => simp [hd] at hnonempty
      | _ :: _ => simp
    simp only [bind, Option.bind_eq_some_iff] at h
    obtain ⟨⟨fraction, afterFraction⟩, hfraction, ⟨exponent, afterExponent⟩, hexponent, h⟩ := h
    have hle : afterFraction.length ≤ _ := length_skipFraction_le hfraction
    have hle' : afterExponent.length ≤ afterFraction.length := length_skipExponent_le hexponent
    cases h
    change afterExponent.length < text.length
    omega

/-- Skipping blanks does not add to the text. -/
theorem length_skipBlanks_le (text : List Glyph) : (skipBlanks text).length ≤ text.length := by
  fun_induction skipBlanks text <;> simp_all
  omega

/-- A token that starts here takes at least one glyph. -/
theorem length_scan_lt {text rest : List Glyph} {token : JsonToken}
    (h : scan text = some (token, rest)) : rest.length < text.length := by
  unfold scan at h
  split at h
  case h_7 =>
    simp only [Option.map_eq_some_iff, Prod.exists, Prod.mk.injEq] at h
    obtain ⟨value, tail, hstring, -, rfl⟩ := h
    have := length_scanString_le hstring
    simp only [List.length_cons]; omega
  case h_11 => have := length_scanNumber_lt h; simp only [List.length_cons]; omega
  case h_12 => exact length_scanNumber_lt h
  all_goals cases h; simp only [List.length_cons]; omega

/-- So does a token behind blanks. -/
theorem length_next?_lt {text rest : List Glyph} {token : JsonToken}
    (h : next? text = some (some (token, rest))) : rest.length < text.length := by
  have hskip := length_skipBlanks_le text
  unfold next? at h
  split at h
  · cases h
  · have := length_scan_lt (Option.some.inj h)
    omega

end JsonToken

end BlockPuzzle
