/-!
# JSON values

What a JSON text says, as far as this library asks: whole numbers keep their value, other numbers are
only known to be numbers. A string literal that stands for no text, because it holds half a surrogate
pair or stray bytes, is garbled; so can be the key of a field.
-/

namespace BlockPuzzle

/-- A JSON value. -/
inductive JsonValue where
  | null
  | bool (value : Bool)
  | integer (value : Int)
  | inexact
  | string (value : String)
  | garbled
  | array (items : List JsonValue)
  | object (fields : List (Option String × JsonValue))
  deriving Inhabited

namespace JsonValue

/-- An object with readable keys. -/
def ofFields (fields : List (String × JsonValue)) : JsonValue :=
  .object (fields.map fun (key, value) => (some key, value))

/-- A text. -/
def toText? : JsonValue → Option String
  | string value => some value
  | _ => none

/-- A truth value. -/
def toBool? : JsonValue → Option Bool
  | bool value => some value
  | _ => none

/-- A whole number that fits a word of 64 bits. -/
def toWord? : JsonValue → Option UInt64
  | integer n => if 0 ≤ n ∧ n < 18446744073709551616 then some (UInt64.ofNat n.toNat) else none
  | _ => none

/-- A word of 64 bits, or nothing for `null`. -/
def toWordOrNull? : JsonValue → Option (Option UInt64)
  | null => some none
  | value => value.toWord?.map some

/-- A list of texts. -/
def toTexts? : JsonValue → Option (List String)
  | array items => items.mapM toText?
  | _ => none

/-- One of several names: the name alone, or as the key of an object whose only value is `null`. -/
def toName? : JsonValue → Option String
  | string name => some name
  | object [(some name, null)] => some name
  | _ => none

/-- The number of a word. -/
def ofWord (word : UInt64) : JsonValue :=
  integer word.toNat

/-- The values of a record with the given field names, in the order of the names. They are written as
an object, in any order and beside other fields, or as an array in order, from whose end some may be
missing. A name that is there twice, or a key that is no text, makes the record unreadable. -/
def record? (names : List String) : JsonValue → Option (List (Option JsonValue))
  | array items =>
    if items.length ≤ names.length then
      some (items.map some ++ List.replicate (names.length - items.length) none)
    else none
  | object fields => do
    let fields ← fields.mapM fun (key, value) => key.map (·, value)
    let known := fields.filter fun (key, _) => names.contains key
    if (known.map Prod.fst).eraseDups.length = known.length then
      some (names.map fun name => known.lookup name)
    else none
  | _ => none

/-- A field that may be missing. -/
def orElse? {α : Type} (read : JsonValue → Option α) (default : α) : Option JsonValue → Option α
  | some value => read value
  | none => some default

end JsonValue

end BlockPuzzle
