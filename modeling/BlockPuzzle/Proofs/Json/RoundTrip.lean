import BlockPuzzle.Proofs.Json.Lexing
import BlockPuzzle.Proofs.Text.Glyphs

/-!
# Written JSON values

A written value is read as itself: `JsonValue.read?_pretty`. Its tokens are taken in one after another,
whatever containers are open around it (`JsonReading.takesIn_prettyAt`).
-/

namespace BlockPuzzle

open Text (Glyph)
open JsonValue JsonToken

namespace JsonReading

variable {reading next last : JsonReading} {text text' : List Char}

/-! ## Texts -/

/-- Reading a text leads on to another state, whatever is behind it that no number goes on with. -/
def TakesIn (reading : JsonReading) (text : List Char) (next : JsonReading) : Prop :=
  ∀ rest : List Char, stops rest →
    reading.run ((text ++ rest).map some) = next.run (rest.map some)

/-- A run reads one token and goes on behind it. -/
lemma run_eq (reading : JsonReading) (text : List Glyph) :
    reading.run text =
      match next? text with
      | none => reading.finish
      | some none => none
      | some (some (token, rest)) => (reading.step token).bind fun next => next.run rest := by
  rw [run]
  split
  · next found => rw [found]
  · next found => rw [found]
  · next found =>
    rw [found]
    dsimp only
    split <;> next taken => rw [taken]; rfl

/-- A reading takes in a token that is written out. -/
lemma takesIn_token (token : JsonToken) (taken : reading.step token = some next) :
    TakesIn reading token.write next := by
  intro rest behind
  rw [run_eq, next?_write token behind]
  simp only [taken, Option.bind_some]

/-- Blanks are passed over. -/
lemma TakesIn.behind_blanks {blanks : List Char} (are : ∀ c ∈ blanks, isBlank c)
    (takesIn : TakesIn reading text next) : TakesIn reading (blanks ++ text) next := by
  intro rest behind
  rw [List.append_assoc, run_eq, List.map_append, next?_append are, ← run_eq]
  exact takesIn rest behind

/-- It does so behind a line break and any indentation as well. -/
lemma TakesIn.behind_newline (level : Nat) (takesIn : TakesIn reading text next) :
    TakesIn reading (newline level ++ text) next := by
  refine takesIn.behind_blanks (List.forall_mem_cons.2 ⟨rfl, fun c mem => ?_⟩)
  rw [List.eq_of_mem_replicate mem]
  rfl

/-- A number ends where two texts follow before each of which it would. -/
lemma stops_append {text rest : List Char} (here : stops text) (behind : stops rest) :
    stops (text ++ rest) := by
  cases text with
  | nil => exact behind
  | cons => exact here

/-- What is taken in one after the other is taken in together. -/
lemma TakesIn.append (first : TakesIn reading text next) (second : TakesIn next text' last)
    (between : stops text') : TakesIn reading (text ++ text') last := by
  intro rest behind
  rw [List.append_assoc, first _ (stops_append between behind), second rest behind]

/-- What stands in brackets begins on a new line, as does the bracket that closes it. -/
lemma TakesIn.enclosed {opened entered filled : JsonReading} {opening closing : Char}
    {items : List Char} (level : Nat) (opens : TakesIn reading [opening] opened)
    (first : TakesIn opened text entered) (others : TakesIn entered items filled)
    (between : stops items) (closes : TakesIn filled [closing] last) :
    TakesIn reading
      (opening :: newline (level + 1) ++ text ++ items ++ newline level ++ [closing]) last := by
  have behind := others.append (closes.behind_newline level) rfl
  have inside := first.append behind (stops_append between rfl)
  have all := opens.append (inside.behind_newline (level + 1)) rfl
  simpa only [List.append_assoc, List.cons_append, List.nil_append] using all

/-- Each further thing begins on a new line behind a comma. -/
lemma TakesIn.further {separated entered : JsonReading} {items : List Char} (level : Nat)
    (comma : TakesIn reading [','] separated) (first : TakesIn separated text entered)
    (others : TakesIn entered items last) (between : stops items) :
    TakesIn reading (',' :: newline level ++ text ++ items) last := by
  have inside := first.append others between
  have all := comma.append (inside.behind_newline level) rfl
  simpa only [List.append_assoc, List.cons_append, List.nil_append] using all

/-! ## Values -/

/-- A value may come next: whatever closes nothing is taken in as its first token. -/
def AwaitsValue (reading : JsonReading) : Prop :=
  ∀ token, close reading.enclosing token = none →
    reading.step token = beginValue reading.enclosing token

/-- A field may come next: a text is taken in as its key. -/
def AwaitsKey (expects : Expects) : Prop :=
  expects = .key ∨ expects = .firstKey

variable {enclosing outer : List Container} {expects : Expects}

/-- A reading that is to begin a value waits for one. -/
lemma awaitsValue (enclosing : List Container) : AwaitsValue ⟨enclosing, .value⟩ :=
  fun _ _ => rfl

/-- So does one at the beginning of an array. -/
lemma awaitsValue_first (enclosing : List Container) : AwaitsValue ⟨enclosing, .firstItem⟩ := by
  intro token stays
  change (close enclosing token).or _ = _
  rw [stays]
  rfl

/-- The key of a field is taken in where one is awaited. -/
lemma takesIn_key {before : List (Option String × JsonValue)} (old key : Option String)
    (awaits : AwaitsKey expects) :
    TakesIn ⟨.object before old :: outer, expects⟩ (quoteKey key)
      ⟨.object before key :: outer, .colon⟩ := by
  refine takesIn_token (.string key) ?_
  rcases awaits with rfl | rfl <;> rfl

/-- A bracket closes an array and hands it on. -/
lemma takesIn_closeArray (item : JsonValue) (items : List JsonValue) :
    TakesIn ⟨.array (items.reverse ++ [item]) :: outer, .separator⟩ [']']
      (emit outer (.array (item :: items))) := by
  refine takesIn_token .closeArray ?_
  change some (emit outer (.array (items.reverse ++ [item]).reverse)) = _
  rw [List.reverse_append, List.reverse_reverse]
  rfl

/-- A brace closes an object and hands it on. -/
lemma takesIn_closeObject (field : Option String × JsonValue)
    (fields : List (Option String × JsonValue)) :
    TakesIn ⟨.object (fields.reverse ++ [field]) none :: outer, .separator⟩ ['\x7d']
      (emit outer (.object (field :: fields))) := by
  refine takesIn_token .closeObject ?_
  change some (emit outer (.object (fields.reverse ++ [field]).reverse)) = _
  rw [List.reverse_append, List.reverse_reverse]
  rfl

/-- A number before further items ends there. -/
lemma stops_prettyItems (level : Nat) (items : List JsonValue) : stops (prettyItems level items) := by
  cases items <;> rfl

/-- So does one before further fields. -/
lemma stops_prettyFields (level : Nat) (fields : List (Option String × JsonValue)) :
    stops (prettyFields level fields) := by
  cases fields <;> rfl

mutual

/-- A written value is taken in as a whole, whatever is open around it. -/
theorem takesIn_prettyAt : ∀ (value : JsonValue) (level : Nat) {enclosing : List Container}
    {expects : Expects}, AwaitsValue ⟨enclosing, expects⟩ →
    TakesIn ⟨enclosing, expects⟩ (prettyAt level value) (emit enclosing value)
  | .null, _, _, _, awaits => takesIn_token .null (awaits _ rfl)
  | .bool true, _, _, _, awaits => takesIn_token (.bool true) (awaits _ rfl)
  | .bool false, _, _, _, awaits => takesIn_token (.bool false) (awaits _ rfl)
  | .integer n, _, _, _, awaits => takesIn_token (.integer n) (awaits _ rfl)
  | .inexact, _, _, _, awaits => takesIn_token .inexact (awaits _ rfl)
  | .string text, _, _, _, awaits => takesIn_token (.string (some text)) (awaits _ rfl)
  | .garbled, _, _, _, awaits => takesIn_token (.string none) (awaits _ rfl)
  | .array [], _, enclosing, _, awaits => by
    have closing : TakesIn ⟨.array [] :: enclosing, .firstItem⟩ [']'] (emit enclosing (.array [])) :=
      takesIn_token .closeArray rfl
    exact (takesIn_token .openArray (awaits _ rfl)).append closing rfl
  | .array (item :: items), level, enclosing, _, awaits => by
    have first : TakesIn ⟨.array [] :: enclosing, .firstItem⟩ (prettyAt (level + 1) item)
        ⟨.array [item] :: enclosing, .separator⟩ :=
      takesIn_prettyAt item (level + 1) (awaitsValue_first _)
    exact .enclosed level (takesIn_token .openArray (awaits _ rfl)) first
      (takesIn_prettyItems items (level + 1) [item] enclosing) (stops_prettyItems _ items)
      (takesIn_closeArray item items)
  | .object [], _, enclosing, _, awaits => by
    have closing : TakesIn ⟨.object [] none :: enclosing, .firstKey⟩ ['\x7d']
        (emit enclosing (.object [])) :=
      takesIn_token .closeObject rfl
    exact (takesIn_token .openObject (awaits _ rfl)).append closing rfl
  | .object (field :: fields), level, enclosing, _, awaits =>
    .enclosed level (takesIn_token .openObject (awaits _ rfl))
      (takesIn_prettyField field (level + 1) [] none enclosing (.inr rfl))
      (takesIn_prettyFields fields (level + 1) [field] enclosing) (stops_prettyFields _ fields)
      (takesIn_closeObject field fields)

/-- Further items are put to those of the open array. -/
theorem takesIn_prettyItems : ∀ (items : List JsonValue) (level : Nat) (before : List JsonValue)
    (outer : List Container),
    TakesIn ⟨.array before :: outer, .separator⟩ (prettyItems level items)
      ⟨.array (items.reverse ++ before) :: outer, .separator⟩
  | [], _, _, _ => fun _ _ => rfl
  | item :: items, level, before, outer => by
    have first : TakesIn ⟨.array before :: outer, .value⟩ (prettyAt level item)
        ⟨.array (item :: before) :: outer, .separator⟩ :=
      takesIn_prettyAt item level (awaitsValue _)
    rw [List.reverse_cons, List.append_assoc]
    exact .further level (takesIn_token .comma rfl) first
      (takesIn_prettyItems items level (item :: before) outer) (stops_prettyItems _ items)

/-- A field is put to those of the open object. -/
theorem takesIn_prettyField : ∀ (field : Option String × JsonValue) (level : Nat)
    (before : List (Option String × JsonValue)) (old : Option String) (outer : List Container)
    {expects : Expects}, AwaitsKey expects →
    TakesIn ⟨.object before old :: outer, expects⟩ (prettyField level field)
      ⟨.object (field :: before) none :: outer, .separator⟩
  | (key, value), level, before, old, outer, expects, awaits => by
    have colon : TakesIn ⟨.object before key :: outer, .colon⟩ [':']
        ⟨.object before key :: outer, .value⟩ :=
      takesIn_token .colon rfl
    have content : TakesIn ⟨.object before key :: outer, .value⟩ ([' '] ++ prettyAt level value)
        ⟨.object ((key, value) :: before) none :: outer, .separator⟩ :=
      (takesIn_prettyAt value level (awaitsValue _)).behind_blanks (List.forall_mem_singleton.2 rfl)
    have all := (takesIn_key old key awaits).append (colon.append content rfl) rfl
    simpa only [prettyField, List.append_assoc, List.cons_append, List.nil_append] using all

/-- Further fields are put to those of the open object. -/
theorem takesIn_prettyFields : ∀ (fields : List (Option String × JsonValue)) (level : Nat)
    (before : List (Option String × JsonValue)) (outer : List Container),
    TakesIn ⟨.object before none :: outer, .separator⟩ (prettyFields level fields)
      ⟨.object (fields.reverse ++ before) none :: outer, .separator⟩
  | [], _, _, _ => fun _ _ => rfl
  | field :: fields, level, before, outer => by
    have comma : TakesIn ⟨.object before none :: outer, .separator⟩ [',']
        ⟨.object before none :: outer, .key⟩ :=
      takesIn_token .comma rfl
    rw [List.reverse_cons, List.append_assoc]
    exact .further level comma (takesIn_prettyField field level before none outer (.inl rfl))
      (takesIn_prettyFields fields level (field :: before) outer) (stops_prettyFields _ fields)

end

end JsonReading

/-- A written value is read as itself. -/
theorem JsonValue.read?_pretty (value : JsonValue) : read? value.pretty.toUTF8 = some value := by
  have takesIn := JsonReading.takesIn_prettyAt value 0 (JsonReading.awaitsValue [])
  have all := takesIn [] rfl
  rw [List.append_nil] at all
  unfold read? pretty
  rw [Text.glyphs_toUTF8, String.toList_ofList]
  refine all.trans ?_
  rw [JsonReading.run_eq]
  rfl

end BlockPuzzle
