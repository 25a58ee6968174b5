import Mathlib.Tactic.Lemma
import BlockPuzzle.Text.Glyph

/-!
# Glyphs of a text

The bytes of a text are taken apart into its characters again: `Text.glyphs_toUTF8`.
-/

namespace BlockPuzzle.Text

/-- Behind any bytes, encoded characters are taken apart as what they are. -/
lemma glyphsFrom_utf8Encode (before : ByteArray) (chars : List Char) :
    glyphsFrom (before ++ chars.utf8Encode) before.size = chars.map some := by
  induction chars generalizing before with
  | nil =>
    rw [glyphsFrom, if_neg (by simp)]
    rfl
  | cons c chars ih =>
    have size : [c].utf8Encode.size = c.utf8Size := by
      rw [List.utf8Encode_singleton, List.size_toByteArray, String.length_utf8EncodeChar]
    have inside : before.size < (before ++ (c :: chars).utf8Encode).size := by
      have := c.utf8Size_pos
      rw [List.utf8Encode_cons, ByteArray.size_append, ByteArray.size_append, size]
      omega
    have decoded : (before ++ (c :: chars).utf8Encode).utf8DecodeChar? before.size = some c := by
      rw [ByteArray.utf8DecodeChar?_eq_utf8DecodeChar?_extract,
        ByteArray.extract_append_eq_right rfl ByteArray.size_append, List.utf8Encode_cons]
      exact List.utf8DecodeChar?_utf8Encode_singleton_append
    have rest := ih (before ++ [c].utf8Encode)
    rw [ByteArray.size_append, size, ByteArray.append_assoc, ← List.utf8Encode_cons] at rest
    rw [glyphsFrom, if_pos inside, decoded]
    exact congrArg (some c :: ·) rest

/-- The glyphs of a text are its characters. -/
lemma glyphs_toUTF8 (text : String) : glyphs text.toUTF8 = text.toList.map some := by
  have all := glyphsFrom_utf8Encode ByteArray.empty text.toList
  rw [ByteArray.empty_append] at all
  rw [glyphs, ← all]
  change glyphsFrom text.toByteArray 0 = _
  rw [← String.toByteArray_ofList, String.ofList_toList]
  rfl

end BlockPuzzle.Text
