import BlockPuzzle.Json.Token
import BlockPuzzle.Json.Value

/-!
# Reading JSON

`JsonValue.read?` reads a text that holds exactly one JSON value. The arrays and objects that are still
open wait on a stack, so there is no limit to their nesting.
-/

namespace BlockPuzzle

open Text (Glyph)

/-- An array or object that is still open; items are kept newest first. An object also holds the key
whose value comes next. -/
inductive Container where
  | array (items : List JsonValue)
  | object (fields : List (Option String × JsonValue)) (key : Option String)

/-- What may come next. -/
inductive Expects where
  | value
  | firstItem
  | key
  | firstKey
  | colon
  | separator
  | nothing (result : JsonValue)

/-- A JSON text half read: the open containers, innermost first, and what may come next. -/
structure JsonReading where
  enclosing : List Container
  expects : Expects

namespace JsonReading

/-- Nothing has been read. -/
def start : JsonReading :=
  ⟨[], .value⟩

/-- Takes in a whole value. -/
def emit (enclosing : List Container) (value : JsonValue) : JsonReading :=
  match enclosing with
  | [] => ⟨[], .nothing value⟩
  | .array items :: outer => ⟨.array (value :: items) :: outer, .separator⟩
  | .object fields key :: outer => ⟨.object ((key, value) :: fields) none :: outer, .separator⟩

/-- Takes in a token where a value may begin. -/
def beginValue (enclosing : List Container) : JsonToken → Option JsonReading
  | .openArray => some ⟨.array [] :: enclosing, .firstItem⟩
  | .openObject => some ⟨.object [] none :: enclosing, .firstKey⟩
  | .null => some (emit enclosing .null)
  | .bool value => some (emit enclosing (.bool value))
  | .integer value => some (emit enclosing (.integer value))
  | .inexact => some (emit enclosing .inexact)
  | .string (some value) => some (emit enclosing (.string value))
  | .string none => some (emit enclosing .garbled)
  | _ => none

/-- Takes in a token where a key may begin. -/
def beginKey (enclosing : List Container) : JsonToken → Option JsonReading
  | .string key =>
    match enclosing with
    | .object fields _ :: outer => some ⟨.object fields key :: outer, .colon⟩
    | _ => none
  | _ => none

/-- Closes the innermost container, if the token does that. -/
def close (enclosing : List Container) : JsonToken → Option JsonReading
  | .closeArray =>
    match enclosing with
    | .array items :: outer => some (emit outer (.array items.reverse))
    | _ => none
  | .closeObject =>
    match enclosing with
    | .object fields _ :: outer => some (emit outer (.object fields.reverse))
    | _ => none
  | _ => none

/-- Goes on behind a comma. -/
def afterComma (enclosing : List Container) : Option JsonReading :=
  match enclosing with
  | .array _ :: _ => some ⟨enclosing, .value⟩
  | .object .. :: _ => some ⟨enclosing, .key⟩
  | [] => none

/-- Takes in one token. -/
def step (reading : JsonReading) (token : JsonToken) : Option JsonReading :=
  match reading.expects with
  | .value => beginValue reading.enclosing token
  | .firstItem => (close reading.enclosing token).or (beginValue reading.enclosing token)
  | .key => beginKey reading.enclosing token
  | .firstKey => (close reading.enclosing token).or (beginKey reading.enclosing token)
  | .colon => if token = .colon then some ⟨reading.enclosing, .value⟩ else none
  | .separator =>
    if token = .comma then afterComma reading.enclosing else close reading.enclosing token
  | .nothing _ => none

/-- The value, if the text is complete. -/
def finish (reading : JsonReading) : Option JsonValue :=
  match reading.expects with
  | .nothing result => some result
  | _ => none

/-- Takes in all tokens of a text. -/
def run (reading : JsonReading) (text : List Glyph) : Option JsonValue :=
  match _h : JsonToken.next? text with
  | none => reading.finish
  | some none => none
  | some (some (token, rest)) =>
    match reading.step token with
    | some next => next.run rest
    | none => none
termination_by text.length
decreasing_by exact JsonToken.length_next?_lt _h

end JsonReading

/-- Reads a JSON text. -/
def JsonValue.read? (bytes : ByteArray) : Option JsonValue :=
  JsonReading.start.run (Text.glyphs bytes)

end BlockPuzzle
