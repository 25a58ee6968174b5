import BlockPuzzle.Proofs.Board.Written
import BlockPuzzle.Proofs.Json.RoundTrip
import BlockPuzzle.Proofs.Storage.Codec
import BlockPuzzle.Proofs.Storage.Saving

/-!
# Loading files

A file that a level or settings were written to is loaded as what was written, and a file that gives a
part of the settings as these with the defaults for all else.
-/

namespace BlockPuzzle

variable {read? : FilePath → Option ByteArray} {path : FilePath}

/-- A level is loaded from the file that was written of it. -/
lemma Level.load_toFile {level : Level} (built : level.board.Built)
    (file : read? path = some level.toFile) : Level.load read? path = .ok level := by
  have text : JsonValue.read? level.toFile = some level.toSheet.toJson := JsonValue.read?_pretty _
  unfold Level.load
  simp only [file, text, Option.bind_some, Level.Sheet.ofJson?_toJson,
    Level.ofSheet_toSheet built]
  rfl

/-- Settings are loaded from any file that writes a part of them. -/
lemma Settings.load_of_writtenAs {part : Settings.Part} {value : JsonValue} {bytes : ByteArray}
    (written : part.WrittenAs value) (text : JsonValue.read? bytes = some value)
    (file : read? path = some bytes) : Settings.load read? path = .ok part.complete := by
  unfold Settings.load
  simp only [file, text, Option.bind_some, Part.ofJson?_of_writtenAs written]

/-- Settings are loaded from the file that was written of them. -/
lemma Settings.load_toFile {settings : Settings} (file : read? path = some settings.toFile) :
    Settings.load read? path = .ok settings :=
  load_of_writtenAs settings.toJson_writtenAs (JsonValue.read?_pretty _) file

/-- Levels and settings are loaded from files as they were written, and parts of settings with the
defaults for all else; what was saved under a path is what is read there. -/
theorem load_written (read? : FilePath → Option ByteArray) (path : FilePath) :
    (∀ level : Level, level.board.Built → read? path = some level.toFile →
      Level.load read? path = .ok level) ∧
    (∀ settings : Settings, read? path = some settings.toFile →
      Settings.load read? path = .ok settings) ∧
    (∀ (part : Settings.Part) (value : JsonValue) (bytes : ByteArray), part.WrittenAs value →
      JsonValue.read? bytes = some value → read? path = some bytes →
      Settings.load read? path = .ok part.complete) ∧
    (∀ value : JsonValue, JsonValue.read? value.pretty.toUTF8 = some value) ∧
    ∀ (tree tree' : FileTree) (content : ByteArray),
      tree.save path content = (.ok (), tree') → tree'.read? path = some content := by
  refine ⟨fun level built file => Level.load_toFile built file,
    fun settings file => Settings.load_toFile file,
    fun part value bytes written text file => Settings.load_of_writtenAs written text file,
    JsonValue.read?_pretty, fun tree tree' content saved => FileTree.read?_of_save saved⟩

/-- A level with a name in quotes and the greatest limit, and settings of which two numbers are given,
beside a field that is not known. -/
theorem load_written_corridor :
    (∃ level tree, level.board.Built ∧ level.name = "\"Eck\"\n\x01😀" ∧
      level.maxBlocks = some 18446744073709551615 ∧
      FileTree.empty.save ⟨"level.json"⟩ level.toFile = (.ok (), tree) ∧
      Level.load tree.read? ⟨"level.json"⟩ = .ok level) ∧
    Settings.load (fun _ => some Settings.default.toFile) ⟨"config.json"⟩ = .ok .default ∧
    Settings.load (fun _ => some ("\x7b\"note\": null, \"tick_budget\": 42, " ++
        "\"cadence\": \x7b\"failure_ms\": 7\x7d\x7d").toUTF8) ⟨"config.json"⟩ =
      .ok ⟨42, 64, .recompute, true, ⟨100, 7, 150, 150, 300⟩, false⟩ := by
  refine ⟨?_, (load_written _ _).2.1 _ rfl, ?_⟩
  · have built : Board.ofRows [[.start, .finish]] [[some .east, none]] =
        .ok ⟨2, 1, #[.start, .finish], #[some .east, none], ⟨0, 0⟩, ⟨1, 0⟩⟩ := by
      with_unfolding_all rfl
    have saved : ∀ content, FileTree.empty.save ⟨"level.json"⟩ content =
        (.ok (), ⟨(["level.json"], .file content) :: FileTree.empty.nodes⟩) := by
      intro content
      with_unfolding_all rfl
    refine ⟨⟨"\"Eck\"\n\x01😀", _, .north, some 18446744073709551615⟩, _, .tables built, rfl, rfl,
      saved _, ?_⟩
    refine (load_written _ _).1 _ (.tables built) ?_
    exact (load_written FileTree.empty.read? _).2.2.2.2 _ _ _ (saved _)
  · refine (load_written _ _).2.2.1
      ⟨some 42, none, none, none, some ⟨none, some 7, none, none, none⟩, none⟩
      (.ofFields [("note", .null), ("tick_budget", .ofWord 42),
        ("cadence", .ofFields [("failure_ms", .ofWord 7)])]) _ ?_ ?_ rfl
    · have cadence := JsonValue.gives_present
        (CadenceTable.Part.fields ⟨none, some 7, none, none, none⟩)
      exact ⟨_, .some cadence, _, [("note", .null)], rfl, (List.perm_append_singleton _ _).symm,
        by decide⟩
    · with_unfolding_all rfl

end BlockPuzzle
