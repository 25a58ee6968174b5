import BlockPuzzle.Json.Printer
import BlockPuzzle.Json.Reader
import BlockPuzzle.Level
import BlockPuzzle.Settings

/-!
# Written levels and settings

Level sheets and settings are written as JSON records. A record may leave out what has a default, and
may hold further fields.
-/

namespace BlockPuzzle

/-- The bearing of a JSON name. -/
def Bearing.ofJson? (value : JsonValue) : Option Bearing :=
  value.toName?.bind Bearing.ofName?

/-- The rule of a JSON name. -/
def SenseRule.ofJson? (value : JsonValue) : Option SenseRule :=
  value.toName?.bind SenseRule.ofName?

namespace Level.Sheet

/-- The names of the fields of a sheet. -/
def fieldNames : List String :=
  ["name", "map", "expected", "start_facing", "max_blocks"]

/-- Reads a sheet. The facing is east and there is no limit on blocks, unless it says otherwise. -/
def ofJson? (value : JsonValue) : Option Level.Sheet := do
  match ← value.record? fieldNames with
  | [some name, some map, some expected, startFacing, maxBlocks] =>
    let name ← name.toText?
    let map ← map.toTexts?
    let expected ← expected.toTexts?
    let startFacing ← JsonValue.orElse? Bearing.ofJson? .east startFacing
    let maxBlocks ← JsonValue.orElse? JsonValue.toWordOrNull? none maxBlocks
    return ⟨name, map, expected, startFacing, maxBlocks⟩
  | _ => none

/-- Writes a sheet. A limit on blocks is written only if there is one. -/
def toJson (sheet : Level.Sheet) : JsonValue :=
  .ofFields <|
    [("name", .string sheet.name),
      ("map", .array (sheet.map.map .string)),
      ("expected", .array (sheet.expected.map .string)),
      ("start_facing", .string sheet.startFacing.name)] ++
    match sheet.maxBlocks with
    | some most => [("max_blocks", .ofWord most)]
    | none => []

end Level.Sheet

namespace CadenceTable

/-- The names of the fields of a cadence table. -/
def fieldNames : List String :=
  ["success_ms", "failure_ms", "timeout_ms", "error_ms", "victory_ms"]

/-- Reads a cadence table; what it leaves out is as in the default one. -/
def ofJson? (value : JsonValue) : Option CadenceTable := do
  match ← value.record? fieldNames with
  | [success, failure, timeout, error, victory] =>
    let success ← JsonValue.orElse? JsonValue.toWord? default.success success
    let failure ← JsonValue.orElse? JsonValue.toWord? default.failure failure
    let timeout ← JsonValue.orElse? JsonValue.toWord? default.timeout timeout
    let error ← JsonValue.orElse? JsonValue.toWord? default.error error
    let victory ← JsonValue.orElse? JsonValue.toWord? default.victory victory
    return ⟨success, failure, timeout, error, victory⟩
  | _ => none

/-- Writes a cadence table. -/
def toJson (table : CadenceTable) : JsonValue :=
  .ofFields
    [("success_ms", .ofWord table.success), ("failure_ms", .ofWord table.failure),
      ("timeout_ms", .ofWord table.timeout), ("error_ms", .ofWord table.error),
      ("victory_ms", .ofWord table.victory)]

end CadenceTable

namespace Settings

/-- The names of the fields of settings. -/
def fieldNames : List String :=
  ["tick_budget", "max_call_depth", "sense_policy", "dedupe_animation", "cadence", "debug"]

/-- Reads settings; what they leave out is as in the default ones. -/
def ofJson? (value : JsonValue) : Option Settings := do
  match ← value.record? fieldNames with
  | [tickBudget, maxCallDepth, senseRule, dedupe, cadence, debug] =>
    let tickBudget ← JsonValue.orElse? JsonValue.toWord? default.tickBudget tickBudget
    let maxCallDepth ← JsonValue.orElse? JsonValue.toWord? default.maxCallDepth maxCallDepth
    let senseRule ← JsonValue.orElse? SenseRule.ofJson? default.senseRule senseRule
    let dedupe ← JsonValue.orElse? JsonValue.toBool? default.dedupe dedupe
    let cadence ← JsonValue.orElse? CadenceTable.ofJson? default.cadence cadence
    let debug ← JsonValue.orElse? JsonValue.toBool? default.debug debug
    return ⟨tickBudget, maxCallDepth, senseRule, dedupe, cadence, debug⟩
  | _ => none

/-- Writes settings. -/
def toJson (settings : Settings) : JsonValue :=
  .ofFields
    [("tick_budget", .ofWord settings.tickBudget),
      ("max_call_depth", .ofWord settings.maxCallDepth),
      ("sense_policy", .string settings.senseRule.name),
      ("dedupe_animation", .bool settings.dedupe),
      ("cadence", settings.cadence.toJson),
      ("debug", .bool settings.debug)]

end Settings

end BlockPuzzle
