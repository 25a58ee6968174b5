/-!
# Glyphs

A file holds bytes. `Text.glyphs` takes them apart into the characters that they spell in UTF-8; a
byte that begins no character is kept as a stray.
-/

namespace BlockPuzzle.Text

/-- A character, or nothing for a stray byte. -/
abbrev Glyph := Option Char

/-- The glyphs from byte `i` on. -/
def glyphsFrom (bytes : ByteArray) (i : Nat) : List Glyph :=
  if i < bytes.size then
    match bytes.utf8DecodeChar? i with
    | some c => some c :: glyphsFrom bytes (i + c.utf8Size)
    | none => none :: glyphsFrom bytes (i + 1)
  else []
termination_by bytes.size - i
decreasing_by
  · have := c.utf8Size_pos; omega
  · omega

/-- The glyphs of some bytes. -/
def glyphs (bytes : ByteArray) : List Glyph :=
  glyphsFrom bytes 0

end BlockPuzzle.Text
