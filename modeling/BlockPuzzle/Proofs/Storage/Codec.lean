import BlockPuzzle.Proofs.Storage.Records

/-!
# Reading what was written

The sheet of a level is read back from what it is written as: `Level.Sheet.ofJson?_toJson`. Settings of
which a part is given are read with the defaults for all else (`Settings.Part.ofJson?_of_writtenAs`), and
what settings are written as gives all of them.
-/

namespace BlockPuzzle

namespace JsonValue

/-- A word that was written is read back. -/
lemma toWord?_ofWord (word : UInt64) : (ofWord word).toWord? = some word := by
  have fits : 0 ≤ (word.toNat : Int) ∧ (word.toNat : Int) < 18446744073709551616 := by
    have lt := word.toNat_lt
    omega
  simp only [ofWord, toWord?]
  rw [if_pos fits, Int.toNat_natCast, UInt64.ofNat_toNat]

/-- An integer is no null. -/
lemma toWordOrNull?_integer (n : Int) :
    (integer n).toWordOrNull? = (integer n).toWord?.map some :=
  rfl

/-- A limit is written only if there is one. -/
lemma orElse?_toWordOrNull? (most : Option UInt64) :
    orElse? toWordOrNull? none (most.map ofWord) = some most := by
  cases most with
  | none => rfl
  | some most =>
    rw [Option.map_some, orElse?, ofWord, toWordOrNull?_integer, ← ofWord, toWord?_ofWord,
      Option.map_some]

/-- Texts that were written are read back. -/
lemma toTexts?_map (texts : List String) : (array (texts.map string)).toTexts? = some texts := by
  change (texts.map string).mapM toText? = some texts
  induction texts with
  | nil => rfl
  | cons text texts ih => rw [List.map_cons, List.mapM_cons, ih]; rfl

/-- A field that can be read back gives what it was written for, or the default if it is missing. -/
lemma orElse?_map {α : Type} {read : JsonValue → Option α} {write : α → JsonValue}
    (reads : ∀ a, read (write a) = some a) (default : α) (given : Option α) :
    orElse? read default (given.map write) = some (given.getD default) := by
  cases given with
  | none => rfl
  | some a => exact reads a

/-- An object with just the fields that are there. -/
lemma gives_present (table : List (String × Option JsonValue)) :
    (ofFields (present table)).Gives table :=
  ⟨_, [], rfl, by rw [List.append_nil], nofun⟩

end JsonValue

open JsonValue

/-- So is a bearing. -/
lemma Bearing.ofJson?_name (bearing : Bearing) : ofJson? (.string bearing.name) = some bearing := by
  cases bearing <;> decide

/-- So is a rule for sensing. -/
lemma SenseRule.ofJson?_name (rule : SenseRule) : ofJson? (.string rule.name) = some rule := by
  cases rule <;> decide

/-! ## Sheets -/

namespace Level.Sheet

/-- The fields of the record that a sheet is written as. -/
def fields (sheet : Level.Sheet) : List (String × Option JsonValue) :=
  [("name", some (.string sheet.name)),
    ("map", some (.array (sheet.map.map .string))),
    ("expected", some (.array (sheet.expected.map .string))),
    ("start_facing", some (.string sheet.startFacing.name)),
    ("max_blocks", sheet.maxBlocks.map .ofWord)]

/-- A sheet is written as the record of those of its fields that are there. -/
lemma toJson_eq (sheet : Level.Sheet) : sheet.toJson = .ofFields (present sheet.fields) := by
  obtain ⟨name, map, expected, startFacing, maxBlocks⟩ := sheet
  cases maxBlocks <;> rfl

/-- A sheet is read back from what it is written as. -/
lemma ofJson?_toJson (sheet : Level.Sheet) : ofJson? sheet.toJson = some sheet := by
  have record : sheet.toJson.record? fieldNames = some (sheet.fields.map Prod.snd) :=
    record?_of_gives rfl (by decide) (sheet.toJson_eq ▸ gives_present sheet.fields)
  unfold ofJson?
  simp only [record, fields, List.map_cons, List.map_nil, Option.bind_eq_bind, Option.bind_some,
    toText?, toTexts?_map, orElse?_toWordOrNull?]
  simp only [orElse?, Bearing.ofJson?_name, Option.bind_some]
  rfl

end Level.Sheet

/-! ## Settings -/

/-- A cadence table of which anything may be missing. -/
structure CadenceTable.Part where
  success : Option Millis
  failure : Option Millis
  timeout : Option Millis
  error : Option Millis
  victory : Option Millis

namespace CadenceTable.Part

variable {value : JsonValue}

/-- The fields of the record that a part of a table is written as. -/
def fields (part : Part) : List (String × Option JsonValue) :=
  [("success_ms", part.success.map .ofWord), ("failure_ms", part.failure.map .ofWord),
    ("timeout_ms", part.timeout.map .ofWord), ("error_ms", part.error.map .ofWord),
    ("victory_ms", part.victory.map .ofWord)]

/-- The table with the default delays for what is missing. -/
def complete (part : Part) : CadenceTable where
  success := part.success.getD default.success
  failure := part.failure.getD default.failure
  timeout := part.timeout.getD default.timeout
  error := part.error.getD default.error
  victory := part.victory.getD default.victory

/-- A part of which nothing is missing. -/
def whole (table : CadenceTable) : Part :=
  ⟨table.success, table.failure, table.timeout, table.error, table.victory⟩

/-- A part of a table is read as the table with the defaults for all else. -/
lemma ofJson?_of_gives {part : Part} (gives : value.Gives part.fields) :
    ofJson? value = some part.complete := by
  have record : value.record? fieldNames = some (part.fields.map Prod.snd) :=
    record?_of_gives rfl (by decide) gives
  unfold ofJson?
  simp only [record, fields, List.map_cons, List.map_nil, Option.bind_eq_bind, Option.bind_some,
    orElse?_map toWord?_ofWord]
  rfl

end CadenceTable.Part

/-- A table is written with all of its fields. -/
lemma CadenceTable.toJson_gives (table : CadenceTable) : table.toJson.Gives (Part.whole table).fields :=
  gives_present (Part.whole table).fields

/-- Settings of which anything may be missing. -/
structure Settings.Part where
  tickBudget : Option UInt64
  maxCallDepth : Option UInt64
  senseRule : Option SenseRule
  dedupe : Option Bool
  cadence : Option CadenceTable.Part
  debug : Option Bool

namespace Settings.Part

/-- The fields of the record that a part of the settings is written as, with this value for the
cadence table. -/
def fields (part : Part) (cadence : Option JsonValue) : List (String × Option JsonValue) :=
  [("tick_budget", part.tickBudget.map .ofWord), ("max_call_depth", part.maxCallDepth.map .ofWord),
    ("sense_policy", part.senseRule.map fun rule => .string rule.name),
    ("dedupe_animation", part.dedupe.map .bool), ("cadence", cadence), ("debug", part.debug.map .bool)]

/-- An object writes a part of the settings: it has the fields that are there, in any order, and maybe
other ones that are not known. What is there of the cadence table is written in the same way. -/
def WrittenAs (part : Part) (value : JsonValue) : Prop :=
  ∃ cadence, Option.Rel (fun table value => value.Gives table.fields) part.cadence cadence ∧
    value.Gives (part.fields cadence)

/-- The settings with the defaults for what is missing. -/
def complete (part : Part) : Settings where
  tickBudget := part.tickBudget.getD default.tickBudget
  maxCallDepth := part.maxCallDepth.getD default.maxCallDepth
  senseRule := part.senseRule.getD default.senseRule
  dedupe := part.dedupe.getD default.dedupe
  cadence := (part.cadence.map CadenceTable.Part.complete).getD default.cadence
  debug := part.debug.getD default.debug

/-- A part of which nothing is missing. -/
def whole (settings : Settings) : Part :=
  ⟨settings.tickBudget, settings.maxCallDepth, settings.senseRule, settings.dedupe,
    some (.whole settings.cadence), settings.debug⟩

/-- A part of the settings is read as the settings with the defaults for all else. -/
lemma ofJson?_of_writtenAs {part : Part} {value : JsonValue} (written : part.WrittenAs value) :
    ofJson? value = some part.complete := by
  obtain ⟨cadence, table, gives⟩ := written
  have record : value.record? fieldNames = some ((part.fields cadence).map Prod.snd) :=
    record?_of_gives rfl (by decide) gives
  have nested : orElse? CadenceTable.ofJson? default.cadence cadence = some part.complete.cadence := by
    unfold complete
    generalize part.cadence = there at table
    cases table with
    | none => rfl
    | some inner => exact CadenceTable.Part.ofJson?_of_gives inner
  have flag : ∀ flag, toBool? (.bool flag) = some flag := fun _ => rfl
  unfold ofJson?
  simp only [record, fields, List.map_cons, List.map_nil, Option.bind_eq_bind, Option.bind_some,
    orElse?_map toWord?_ofWord, orElse?_map SenseRule.ofJson?_name, orElse?_map flag, nested]
  rfl

end Settings.Part

/-- Settings are written with nothing missing. -/
lemma Settings.toJson_writtenAs (settings : Settings) :
    (Part.whole settings).WrittenAs settings.toJson :=
  ⟨settings.cadence.toJson, .some settings.cadence.toJson_gives,
    gives_present ((Part.whole settings).fields settings.cadence.toJson)⟩

end BlockPuzzle
