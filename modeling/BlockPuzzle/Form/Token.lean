import BlockPuzzle.Text.Blank

/-!
# Tokens

A cursor walks over a script text and remembers how many bytes lie behind it. `Cursor.next?` skips
blanks and comments and reads one token; `Cursor.tokens` lists all of them with the offsets they
start at, up to the first one that cannot be read.
-/

namespace BlockPuzzle

/-- What makes a script text unreadable; offsets count bytes. -/
inductive ReadError where
  | tooDeep (offset : Nat)
  | unbalanced (offset : Nat)
  | unclosedList (offset : Nat)
  | integerRange (offset : Nat)
  | unclosedText (offset : Nat)
  | unknownEscape (escaped : Char) (offset : Nat)
  deriving DecidableEq

/-- The words for a reading error. -/
def ReadError.message : ReadError → String
  | tooDeep offset => "lists nested too deeply at byte " ++ toString offset
  | unbalanced offset => "unbalanced ')' at byte " ++ toString offset
  | unclosedList offset => "unterminated list at byte " ++ toString offset
  | integerRange offset => "integer literal out of range at byte " ++ toString offset
  | unclosedText offset => "unterminated string literal at byte " ++ toString offset
  | unknownEscape escaped offset =>
    "unknown escape \\" ++ String.singleton escaped ++ " at byte " ++ toString offset

/-- The smallest meaningful pieces of a script text. -/
inductive Token where
  | opening
  | closing
  | text (value : String)
  | atom (name : String)
  deriving DecidableEq

/-- Characters that may stand in an atom. -/
def Token.isAtomChar (c : Char) : Bool :=
  !(Text.isBlank c || c == '(' || c == ')' || c == '"' || c == ';')

/-- The character that a backslash and `c` stand for in a quoted text. -/
def Token.unescape? (c : Char) : Option Char :=
  match c with
  | '"' => some '"'
  | '\\' => some '\\'
  | 'n' => some '\n'
  | 't' => some '\t'
  | _ => none

/-- A position in a text: the bytes behind it and the characters ahead. -/
structure Cursor where
  offset : Nat
  rest : List Char

namespace Cursor

/-- The cursor before a whole text. -/
def start (source : String) : Cursor :=
  ⟨0, source.toList⟩

/-- Moves over blanks and comments; a comment runs from `;` to the end of its line. -/
def skipTrivia (inComment : Bool) (offset : Nat) : List Char → Cursor
  | [] => ⟨offset, []⟩
  | c :: cs =>
    if inComment then skipTrivia (c != '\n') (offset + c.utf8Size) cs
    else if Text.isBlank c then skipTrivia false (offset + c.utf8Size) cs
    else if c == ';' then skipTrivia true (offset + c.utf8Size) cs
    else ⟨offset, c :: cs⟩

/-- Reads a quoted text behind its opening quote, which stood at byte `quote`. -/
def scanText (quote offset : Nat) (read : List Char) : List Char → Except ReadError (String × Cursor)
  | [] => .error (.unclosedText quote)
  | [c] => if c == '"' then .ok (String.ofList read.reverse, ⟨offset + 1, []⟩)
    else .error (.unclosedText quote)
  | c :: d :: cs =>
    if c == '"' then .ok (String.ofList read.reverse, ⟨offset + 1, d :: cs⟩)
    else if c == '\\' then
      match Token.unescape? d with
      | some e => scanText quote (offset + c.utf8Size + d.utf8Size) (e :: read) cs
      | none => .error (.unknownEscape d offset)
    else scanText quote (offset + c.utf8Size) (c :: read) (d :: cs)

/-- Reads the longest atom that starts with `c`, a character that may stand in an atom. -/
def scanAtom (offset : Nat) (c : Char) (cs : List Char) : String × Cursor :=
  let name := c :: cs.takeWhile Token.isAtomChar
  (String.ofList name, ⟨offset + Text.byteLength name, cs.dropWhile Token.isAtomChar⟩)

/-- Reads one token and the offset it starts at, or finds that there is none. Behind a token that
cannot be read nothing is left. -/
def next? (cursor : Cursor) : Option (Except ReadError (Nat × Token) × Cursor) :=
  let here := skipTrivia false cursor.offset cursor.rest
  match here.rest with
  | [] => none
  | c :: cs =>
    if c == '(' then some (.ok (here.offset, .opening), ⟨here.offset + 1, cs⟩)
    else if c == ')' then some (.ok (here.offset, .closing), ⟨here.offset + 1, cs⟩)
    else if c == '"' then
      match scanText here.offset (here.offset + 1) [] cs with
      | .ok (value, after) => some (.ok (here.offset, .text value), after)
      | .error e => some (.error e, ⟨here.offset + Text.byteLength (c :: cs), []⟩)
    else
      let atom := scanAtom here.offset c cs
      some (.ok (here.offset, .atom atom.1), atom.2)

/-! ## Reading a token leaves less text -/

/-- Skipping does not add to the text ahead. -/
theorem length_skipTrivia_le (inComment : Bool) (offset : Nat) (cs : List Char) :
    (skipTrivia inComment offset cs).rest.length ≤ cs.length := by
  induction cs generalizing inComment offset with
  | nil => simp [skipTrivia]
  | cons c cs ih =>
    unfold skipTrivia
    repeat' split
    · exact Nat.le_succ_of_le (ih ..)
    · exact Nat.le_succ_of_le (ih ..)
    · exact Nat.le_succ_of_le (ih ..)
    · exact Nat.le_refl _

/-- Nor does reading a quoted text. -/
theorem length_scanText_le {quote offset : Nat} {read cs : List Char} {value : String} {after : Cursor}
    (h : scanText quote offset read cs = .ok (value, after)) : after.rest.length ≤ cs.length := by
  fun_induction scanText quote offset read cs with
  | case1 => cases h
  | case2 => cases h; simp
  | case3 => cases h
  | case4 => cases h; simp
  | case5 offset read c d cs hq hb e he ih => have := ih h; simp; omega
  | case6 => cases h
  | case7 offset read c d cs hq hb ih => have := ih h; simp at this ⊢; omega

/-- Nor does leaving out characters at the front. -/
theorem length_dropWhile_le (p : Char → Bool) (cs : List Char) :
    (cs.dropWhile p).length ≤ cs.length :=
  (List.dropWhile_suffix p).length_le

/-- Reading a token takes at least one character, which is why `tokens` terminates. -/
theorem length_next?_lt {cursor after : Cursor} {result : Except ReadError (Nat × Token)}
    (h : cursor.next? = some (result, after)) : after.rest.length < cursor.rest.length := by
  have hskip := length_skipTrivia_le false cursor.offset cursor.rest
  unfold next? at h
  simp only at h
  split at h
  · cases h
  · next c cs hrest =>
    rw [hrest] at hskip
    simp only [List.length_cons] at hskip
    split at h
    · cases h; exact hskip
    · split at h
      · cases h; exact hskip
      · split at h
        · split at h
          · next hscan => cases h; have := length_scanText_le hscan; omega
          · cases h; simp; omega
        · cases h
          have := length_dropWhile_le Token.isAtomChar cs
          simp only [scanAtom]
          omega

/-- All tokens with their offsets, in order. A token that cannot be read ends the list. -/
def tokens (cursor : Cursor) : List (Except ReadError (Nat × Token)) :=
  match _h : cursor.next? with
  | none => []
  | some (result, after) => result :: tokens after
termination_by cursor.rest.length
decreasing_by exact length_next?_lt _h

end Cursor

end BlockPuzzle
