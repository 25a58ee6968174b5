import BlockPuzzle.Json.Printer
import BlockPuzzle.Json.Reader
import BlockPuzzle.Proofs.Form.Reading

/-!
# Written JSON tokens

Every token has a text from which it is read again, behind blanks and in front of anything that a number
cannot go on with: `JsonToken.next?_write`.
-/

namespace BlockPuzzle

open Text (Glyph)

namespace JsonToken

/-- The text of a token. -/
def write : JsonToken → List Char
  | openArray => ['[']
  | closeArray => [']']
  | openObject => ['\x7b']
  | closeObject => ['\x7d']
  | comma => [',']
  | colon => [':']
  | null => ['n', 'u', 'l', 'l']
  | bool true => ['t', 'r', 'u', 'e']
  | bool false => ['f', 'a', 'l', 's', 'e']
  | integer value => (toString value).toList
  | inexact => JsonValue.inexactText
  | string value => JsonValue.quoteKey value

/-- Whether a number ends where a text begins. -/
def stops : List Char → Bool
  | [] => true
  | c :: _ => !c.isDigit && c != '.' && c != 'e' && c != 'E'

variable {digits rest : List Char}

/-! ## Numbers -/

/-- Only zero has digits that begin with a zero. -/
lemma head?_toDigits_ne {n : Nat} (pos : 0 < n) : (Nat.toDigits 10 n).head? ≠ some '0' := by
  induction n using Nat.strongRecOn with
  | ind n ih =>
    rw [Nat.toDigits_eq_if (by decide)]
    split
    · next lt =>
      have all : ∀ n < 10, 0 < n → [n.digitChar].head? ≠ some '0' := by decide
      exact all n lt pos
    · next ge =>
      have ge : 10 ≤ n := Nat.le_of_not_lt ge
      rw [List.head?_append, Option.or_of_isSome (List.isSome_head?.2 Nat.toDigits_ne_nil)]
      exact ih (n / 10) (Nat.div_lt_self pos (by decide)) (Nat.div_pos ge (by decide))

/-- All digits are taken if none follows. -/
lemma takeDigits_append (are : ∀ d ∈ digits, d.isDigit) (behind : stops rest) :
    takeDigits ((digits ++ rest).map some) = (digits, rest.map some) := by
  induction digits with
  | nil =>
    cases rest with
    | nil => rfl
    | cons c rest =>
      simp only [stops, Bool.and_eq_true, Bool.not_eq_true'] at behind
      simp [takeDigits, behind.1.1.1]
  | cons d digits ih =>
    obtain ⟨digit, are⟩ := List.forall_mem_cons.1 are
    simp [takeDigits, digit, -List.map_append, ih are]

/-- Behind a number stands nothing that would go on with it. -/
lemma map_ne_of_stops {c : Char} (behind : stops rest) (goesOn : stops [c] = false)
    (tail : List Glyph) : rest.map some ≠ some c :: tail := by
  intro same
  obtain ⟨_, _, rfl, is, -⟩ := List.map_eq_cons_iff.1 same
  cases is
  cases behind.symm.trans goesOn

/-- So there is no fraction. -/
lemma skipFraction_of_stops (behind : stops rest) :
    skipFraction (rest.map some) = some (false, rest.map some) := by
  unfold skipFraction
  split
  · next same => exact absurd same (map_ne_of_stops behind rfl _)
  · rfl

/-- Nor is there an exponent. -/
lemma skipExponent_of_stops (behind : stops rest) :
    skipExponent (rest.map some) = some (false, rest.map some) := by
  unfold skipExponent
  split
  · next same => exact absurd same (map_ne_of_stops behind rfl _)
  · next same => exact absurd same (map_ne_of_stops behind rfl _)
  · rfl

/-- The digits of a number are read as it, behind a minus sign as its negative unless it is zero. -/
lemma scanNumber_toDigits (minus : Bool) (n : Nat) (behind : stops rest) :
    scanNumber minus ((Nat.toDigits 10 n ++ rest).map some) =
      some (if minus && n == 0 then inexact else if minus then integer (-n) else integer n,
        rest.map some) := by
  have are : ∀ d ∈ Nat.toDigits 10 n, d.isDigit := fun _ =>
    Nat.isDigit_of_mem_toDigits (by decide) (by decide)
  have proper : ((Nat.toDigits 10 n).isEmpty ||
      ((Nat.toDigits 10 n).head? == some '0' && (Nat.toDigits 10 n).length != 1)) = false := by
    rcases Nat.eq_zero_or_pos n with rfl | pos
    · rfl
    · simp [Nat.toDigits_ne_nil, head?_toDigits_ne pos]
  have value : digitsValue (Nat.toDigits 10 n) = n := digitsValue_toDigits 0 n
  unfold scanNumber
  simp only [takeDigits_append are behind, proper, skipFraction_of_stops behind,
    Option.bind_eq_bind, Option.bind_some, skipExponent_of_stops behind, value]
  rfl

/-- What begins with a digit is scanned as a number. -/
lemma scan_of_isDigit {d : Char} (digit : d.isDigit) (text : List Glyph) :
    scan (some d :: text) = scanNumber false (some d :: text) := by
  unfold scan
  split
  case h_12 => rfl
  all_goals
    next same =>
    cases same
    exact absurd digit (by decide)

/-- A number is written in decimal digits, with a minus in front if it is negative. -/
lemma write_integer (n : Int) :
    (integer n).write =
      if 0 ≤ n then Nat.toDigits 10 n.toNat else '-' :: Nat.toDigits 10 (-n).toNat := by
  change (Int.repr n).toList = _
  rw [Int.repr_eq_if]
  split
  · exact Nat.toList_repr
  · rw [String.toList_append, Nat.toList_repr]
    rfl

/-- The digits of a number begin with one. -/
lemma exists_toDigits (n : Nat) : ∃ d digits, Nat.toDigits 10 n = d :: digits ∧ d.isDigit := by
  obtain ⟨d, digits, are⟩ := List.exists_cons_of_ne_nil (Nat.toDigits_ne_nil (n := n) (b := 10))
  have mem : d ∈ Nat.toDigits 10 n := are ▸ List.mem_cons_self
  exact ⟨d, digits, are, Nat.isDigit_of_mem_toDigits (by decide) (by decide) mem⟩

/-- A number is scanned as it was written. -/
lemma scan_integer (n : Int) (behind : stops rest) :
    scan (((integer n).write ++ rest).map some) = some (integer n, rest.map some) := by
  rw [write_integer]
  split
  · next nonneg =>
    have read := scanNumber_toDigits false n.toNat behind
    obtain ⟨d, digits, are, digit⟩ := exists_toDigits n.toNat
    rw [are, List.cons_append, List.map_cons] at read ⊢
    rw [scan_of_isDigit digit, read, Int.toNat_of_nonneg nonneg]
    rfl
  · next neg =>
    have ne : (-n).toNat ≠ 0 := by omega
    have back : -((-n).toNat : Int) = n := by omega
    change scanNumber true ((Nat.toDigits 10 (-n).toNat ++ rest).map some) = _
    rw [scanNumber_toDigits true _ behind, if_neg (by simp [ne]), if_pos rfl, back]

/-! ## Strings -/

/-- A hexadecimal digit has the value that it was written for. -/
lemma hexValue?_hexDigit {n : Nat} (lt : n < 16) : hexValue? (JsonValue.hexDigit n) = some n := by
  have all : ∀ n < 16, hexValue? (JsonValue.hexDigit n) = some n := by decide
  exact all n lt

/-- A control character is read from the four digits that are written for it. -/
lemma unitValue?_hexDigit {n : Nat} (lt : n < 0x20) :
    unitValue? '0' '0' (JsonValue.hexDigit (n / 16)) (JsonValue.hexDigit (n % 16)) = some n := by
  have zero : hexValue? '0' = some 0 := rfl
  simp only [unitValue?, zero, hexValue?_hexDigit (show n / 16 < 16 by omega),
    hexValue?_hexDigit (show n % 16 < 16 by omega), Option.bind_eq_bind, Option.bind_some]
  exact congrArg some (by omega)

/-- Where no half of a surrogate pair waits, a small code unit is a character. -/
lemma addUnit_of_lt {n : Nat} (lt : n < 0x20) (chars : List Char) :
    Spelling.addUnit ⟨chars, none, true⟩ n = ⟨Char.ofNat n :: chars, none, true⟩ := by
  have first : (0xd800 ≤ n && n < 0xdc00) = false := by simp; omega
  have second : (0xdc00 ≤ n && n < 0xe000) = false := by simp; omega
  simp only [Spelling.addUnit, first, second]
  rfl

/-- A character behind a backslash is read as the one it stands for. -/
lemma scanString_unescape {e c : Char} (is : unescape? e = some c) (chars : List Char)
    (text : List Glyph) :
    scanString ⟨chars, none, true⟩ (some '\\' :: some e :: text) =
      scanString ⟨c :: chars, none, true⟩ text := by
  rw [scanString, is]
  · rfl
  · rintro a b c d rest - rfl
    cases is

/-- A written character is read as itself. -/
lemma scanString_escape (c : Char) (chars rest : List Char) :
    scanString ⟨chars, none, true⟩ ((JsonValue.escape c ++ rest).map some) =
      scanString ⟨c :: chars, none, true⟩ (rest.map some) := by
  unfold JsonValue.escape
  split
  case h_8 quote backslash _ _ _ _ _ =>
    split
    · next control =>
      simp only [List.cons_append, List.nil_append, List.map_cons]
      rw [scanString]
      simp only [unitValue?_hexDigit control, addUnit_of_lt control, Char.ofNat_toNat]
    · next plain =>
      rw [List.singleton_append, List.map_cons, scanString, if_neg plain]
      · rfl
      · exact quote
      · exact fun _ _ _ _ _ _ => backslash
      · exact fun _ _ _ => backslash
      · exact backslash
  all_goals exact scanString_unescape rfl chars _

/-- A written text is read as itself. -/
lemma scanString_flatMap (text chars rest : List Char) :
    scanString ⟨chars, none, true⟩ ((text.flatMap JsonValue.escape ++ '"' :: rest).map some) =
      some (some (String.ofList (chars.reverse ++ text)), rest.map some) := by
  induction text generalizing chars with
  | nil => simp [scanString, Spelling.text?]
  | cons c text ih =>
    rw [List.flatMap_cons, List.append_assoc, scanString_escape, ih, List.reverse_cons,
      List.append_assoc]
    rfl

/-- A string is scanned as it was written. -/
lemma scan_string (value : Option String) (rest : List Char) :
    scan (((string value).write ++ rest).map some) = some (string value, rest.map some) := by
  cases value with
  | none => rfl
  | some text =>
    have literal := scanString_flatMap text.toList [] rest
    change (scanString ⟨[], none, true⟩
      ((text.toList.flatMap JsonValue.escape ++ ['"'] ++ rest).map some)).map _ = _
    rw [List.append_assoc, List.singleton_append, literal, List.reverse_nil, List.nil_append,
      String.ofList_toList]
    rfl

/-! ## Tokens -/

/-- A written token is read as itself. -/
lemma scan_write (token : JsonToken) (behind : stops rest) :
    scan ((token.write ++ rest).map some) = some (token, rest.map some) := by
  cases token with
  | integer n => exact scan_integer n behind
  | string value => exact scan_string value rest
  | inexact => exact scanNumber_toDigits true 0 behind
  | bool value => cases value <;> rfl
  | _ => rfl

/-- Blanks are skipped, and skipping goes on behind them. -/
lemma skipBlanks_append {blanks : List Char} (are : ∀ c ∈ blanks, isBlank c) (text : List Glyph) :
    skipBlanks (blanks.map some ++ text) = skipBlanks text := by
  induction blanks with
  | nil => rfl
  | cons c blanks ih =>
    obtain ⟨blank, are⟩ := List.forall_mem_cons.1 are
    rw [List.map_cons, List.cons_append, skipBlanks, if_pos blank, ih are]

/-- Blanks in front of a token do not count. -/
lemma next?_append {blanks : List Char} (are : ∀ c ∈ blanks, isBlank c) (text : List Glyph) :
    next? (blanks.map some ++ text) = next? text := by
  unfold next?
  rw [skipBlanks_append are]

/-- A written token does not begin with a blank. -/
lemma exists_write (token : JsonToken) : ∃ c text, token.write = c :: text ∧ isBlank c = false := by
  cases token with
  | integer n =>
    rw [write_integer]
    split
    · obtain ⟨d, digits, are, digit⟩ := exists_toDigits n.toNat
      refine ⟨d, digits, are, ?_⟩
      unfold isBlank
      simp only [Bool.or_eq_false_iff, beq_eq_false_iff_ne]
      refine ⟨⟨⟨?_, ?_⟩, ?_⟩, ?_⟩ <;> (rintro rfl; exact absurd digit (by decide))
    · exact ⟨'-', _, rfl, rfl⟩
  | string value => cases value <;> exact ⟨_, _, rfl, rfl⟩
  | bool value => cases value <;> exact ⟨_, _, rfl, rfl⟩
  | _ => exact ⟨_, _, rfl, rfl⟩

/-- The first token of a text that one is written in front of. -/
lemma next?_write (token : JsonToken) (behind : stops rest) :
    next? ((token.write ++ rest).map some) = some (some (token, rest.map some)) := by
  have read := scan_write token behind
  obtain ⟨c, text, written, ink⟩ := token.exists_write
  rw [written, List.cons_append, List.map_cons] at read ⊢
  unfold next?
  rw [skipBlanks, if_neg (by simp [ink])]
  exact congrArg some read

end JsonToken

end BlockPuzzle
