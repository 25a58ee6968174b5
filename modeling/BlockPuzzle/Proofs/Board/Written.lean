import BlockPuzzle.Level
import BlockPuzzle.Proofs.Board.Tables
import BlockPuzzle.Proofs.Results
import BlockPuzzle.Proofs.Text.Words

/-!
# Boards in writing

Two texts are read as a board just if they are read as two tables that make one (`Board.ofText_iff`). A
map is written in one way only (`Board.readMap_iff`), a table of bearings in many, of which
`Board.tidyRow` chooses one. A board that was built is read again from what it writes, and so is a
level: `Level.toSheet_tidies`.
-/

namespace BlockPuzzle

/-- A tile is read from its own symbol only. -/
lemma Tile.ofSymbol?_eq_some_iff {symbol : Char} {tile : Tile} :
    ofSymbol? symbol = some tile ↔ symbol = tile.symbol := by
  constructor
  · intro reads
    unfold ofSymbol? at reads
    split at reads <;> cases reads <;> rfl
  · rintro rfl
    cases tile <;> rfl

namespace Board

/-- A board has been accepted, as two tables or in writing. -/
inductive Built (board : Board) : Prop where
  | tables {map table} :
    ofRows map table = .ok board →
    Built board
  | texts {map table} :
    ofText map table = .ok board →
    Built board

/-- A row of the map in writing. -/
def tilesText (tiles : List Tile) : String :=
  String.ofList (tiles.map Tile.symbol)

/-- A row of the table of bearings in writing. -/
def bearingsText (bearings : List (Option Bearing)) : String :=
  " ".intercalate (bearings.map bearingWord)

/-- A direction as the letters of a compass rose; other words stay. -/
def tidyWord (word : List Char) : String :=
  match Bearing.ofText? (String.ofList word) with
  | some bearing => bearing.abbreviation
  | none => String.ofList word

/-- A row of bearings with tidy words and one blank between any two of them. -/
def tidyRow (row : String) : String :=
  " ".intercalate ((Text.words row.toList).map tidyWord)

variable {map : List (List Tile)} {table : List (List (Option Bearing))} {board : Board}

/-! ## Maps -/

/-- A row is read as tiles just if it consists of their symbols. -/
lemma readTiles_iff {y x : Nat} {symbols : List Char} {tiles : List Tile} :
    readTiles y x symbols = .ok tiles ↔ symbols = tiles.map Tile.symbol := by
  induction symbols generalizing x tiles with
  | nil => rw [readTiles, Except.ok.injEq, eq_comm, eq_comm (a := []), List.map_eq_nil_iff]
  | cons symbol symbols ih =>
    rw [readTiles]
    cases is : Tile.ofSymbol? symbol with
    | none =>
      refine iff_of_false nofun fun same => ?_
      cases tiles with
      | nil => cases same
      | cons tile tiles =>
        rw [Tile.ofSymbol?_eq_some_iff.2 (List.cons.inj same).1] at is
        cases is
    | some tile =>
      simp only [bind_eq_ok, pure_eq_ok]
      constructor
      · rintro ⟨others, reads, rfl⟩
        rw [List.map_cons, ← Tile.ofSymbol?_eq_some_iff.1 is, ← ih.1 reads]
      · intro same
        cases tiles with
        | nil => cases same
        | cons tile' tiles =>
          obtain ⟨first, others⟩ := List.cons.inj same
          obtain rfl := Option.some.inj (is.symm.trans (Tile.ofSymbol?_eq_some_iff.2 first))
          exact ⟨tiles, ih.2 others, rfl⟩

/-- A map is written in one way only. -/
lemma readMap_iff {y : Nat} {rows : List String} :
    readMap y rows = .ok map ↔ rows = map.map tilesText := by
  induction rows generalizing y map with
  | nil => rw [readMap, Except.ok.injEq, eq_comm, eq_comm (a := []), List.map_eq_nil_iff]
  | cons row rows ih =>
    simp only [readMap, bind_eq_ok, pure_eq_ok, readTiles_iff, ih]
    constructor
    · rintro ⟨tiles, first, others, rfl, rfl⟩
      rw [List.map_cons, tilesText, ← first, String.ofList_toList]
    · intro same
      cases map with
      | nil => cases same
      | cons tiles map =>
        obtain ⟨rfl, rfl⟩ := List.cons.inj same
        exact ⟨tiles, String.toList_ofList, map, rfl, rfl⟩

/-! ## Tables of bearings -/

/-- A bearing is read from its abbreviation. -/
lemma ofText?_abbreviation (bearing : Bearing) :
    Bearing.ofText? bearing.abbreviation = some bearing := by
  cases bearing <;> decide +kernel

/-- The word for no bearing is tidy. -/
lemma tidyWord_none : tidyWord ['-'] = bearingWord none := by
  decide +kernel

/-- What is written for a cell of the table is a word. -/
lemma isWord_bearingWord (expected : Option Bearing) : Text.IsWord (bearingWord expected).toList := by
  rcases expected with _ | bearing
  · decide +kernel
  · cases bearing <;> decide +kernel

/-- A row of bearings is read from the words that are written for it. -/
lemma readBearings_written (y x : Nat) (bearings : List (Option Bearing)) :
    readBearings y x (bearings.map fun expected => (bearingWord expected).toList) = .ok bearings := by
  induction bearings generalizing x with
  | nil => rfl
  | cons expected bearings ih =>
    rw [List.map_cons, readBearings]
    cases expected with
    | none =>
      have nothing : (bearingWord none).toList = ['-'] := by decide
      rw [if_pos nothing, ih]
      rfl
    | some bearing =>
      have letters : (bearingWord (some bearing)).toList ≠ ['-'] := by
        cases bearing <;> decide
      rw [if_neg letters, String.ofList_toList, bearingWord, ofText?_abbreviation]
      simp only
      rw [ih]
      rfl

/-- Words that are read as bearings say the same when they are tidy. -/
lemma tidyWord_of_readBearings {y x : Nat} {words : List (List Char)}
    {bearings : List (Option Bearing)} (reads : readBearings y x words = .ok bearings) :
    words.map tidyWord = bearings.map bearingWord := by
  induction words generalizing x bearings with
  | nil =>
    cases reads
    rfl
  | cons word words ih =>
    rw [readBearings] at reads
    by_cases nothing : word = ['-']
    · subst nothing
      rw [if_pos rfl] at reads
      obtain ⟨others, later, same⟩ := bind_eq_ok.1 reads
      obtain rfl := pure_eq_ok.1 same
      rw [List.map_cons, ih later, List.map_cons]
      exact congrArg (· :: _) tidyWord_none
    · rw [if_neg nothing] at reads
      cases spells : Bearing.ofText? (String.ofList word) with
      | none =>
        rw [spells] at reads
        cases reads
      | some bearing =>
        rw [spells] at reads
        obtain ⟨others, later, same⟩ := bind_eq_ok.1 reads
        obtain rfl := pure_eq_ok.1 same
        rw [List.map_cons, ih later, List.map_cons, tidyWord, spells]
        rfl

/-- The words of a written row are those of its bearings. -/
lemma words_bearingsText (bearings : List (Option Bearing)) :
    Text.words (bearingsText bearings).toList =
      bearings.map fun expected => (bearingWord expected).toList := by
  have are : ∀ word ∈ bearings.map fun expected => (bearingWord expected).toList, Text.IsWord word := by
    intro word mem
    obtain ⟨expected, -, rfl⟩ := List.mem_map.1 mem
    exact isWord_bearingWord expected
  rw [bearingsText, String.toList_intercalate, List.map_map]
  exact Text.words_intercalate (by decide) are

/-- A table is read from the rows that are written for it. -/
lemma readTable_written (y : Nat) (table : List (List (Option Bearing))) :
    readTable y (table.map bearingsText) = .ok table := by
  induction table generalizing y with
  | nil => rfl
  | cons bearings table ih =>
    rw [List.map_cons, readTable, words_bearingsText, readBearings_written, ih]
    rfl

/-- Rows that are read as a table say the same when they are tidy. -/
lemma tidyRow_of_readTable {y : Nat} {rows : List String} (reads : readTable y rows = .ok table) :
    rows.map tidyRow = table.map bearingsText := by
  induction rows generalizing y table with
  | nil =>
    cases reads
    rfl
  | cons row rows ih =>
    obtain ⟨bearings, first, reads⟩ := bind_eq_ok.1 reads
    obtain ⟨others, later, same⟩ := bind_eq_ok.1 reads
    obtain rfl := pure_eq_ok.1 same
    rw [List.map_cons, List.map_cons, ih later, tidyRow, tidyWord_of_readBearings first]
    rfl

/-! ## Boards -/

/-- A board is built from texts just if they are read as tables that it is built from. -/
lemma ofText_iff {rows words : List String} :
    ofText rows words = .ok board ↔
      ∃ map table, readMap 0 rows = .ok map ∧ readTable 0 words = .ok table ∧
        ofRows map table = .ok board := by
  simp only [ofText, bind_eq_ok]
  constructor
  · rintro ⟨map, map', table, table', built⟩
    exact ⟨map, table, map', table', built⟩
  · rintro ⟨map, table, map', table', built⟩
    exact ⟨map, map', table, table', built⟩

/-- A board that was built was built from tables. -/
lemma Built.exists_ofRows (built : board.Built) : ∃ map table, ofRows map table = .ok board := by
  cases built with
  | tables built => exact ⟨_, _, built⟩
  | texts built =>
    obtain ⟨map, table, -, -, built⟩ := ofText_iff.1 built
    exact ⟨map, table, built⟩

/-- A row consists of what stands at its places. -/
lemma filterMap_range_getElem? {α : Type} (row : List α) :
    ((List.range row.length).filterMap fun x => row[x]?) = row := by
  induction row with
  | nil => rfl
  | cons a row ih =>
    rw [List.length_cons, List.range_succ_eq_map]
    simp only [List.filterMap_cons, List.getElem?_cons_zero, List.filterMap_map]
    exact congrArg (a :: ·) ih

/-- What is stored row by row is read off row by row. -/
lemma rows_flatten {α : Type} {rows : List (List α)} (height : rows.length = board.height)
    (wide : ∀ row ∈ rows, row.length = board.width) : board.rows rows.flatten.toArray = rows := by
  refine List.ext_getElem (by simp [Board.rows, height]) fun y low low' => ?_
  have width := wide rows[y] (List.getElem_mem low')
  simp only [Board.rows, List.getElem_map, List.getElem_range]
  rw [← width]
  refine Eq.trans (List.filterMap_congr fun x mem => ?_) (filterMap_range_getElem? rows[y])
  rw [List.mem_range] at mem
  rw [List.getElem?_toArray, width, getElem?_flatten wide (width ▸ mem), List.getElem?_eq_getElem low',
    Option.bind_some]

/-- A board writes its map as the rows of tiles that it was built from. -/
lemma Stored.mapText_eq (stored : Stored map table board) : board.mapText = map.map tilesText := by
  rw [mapText, stored.tiles, rows_flatten stored.height stored.rows]
  rfl

/-- A board writes its table as the rows of bearings that it was built from. -/
lemma Stored.tableText_eq (stored : Stored map table board) :
    board.tableText = table.map bearingsText := by
  rw [tableText, stored.expected, rows_flatten stored.tableHeight stored.tableRows]
  rfl

/-- A board that was built is read again from what it writes. -/
lemma ofText_written (built : ofRows map table = .ok board) :
    ofText board.mapText board.tableText = .ok board := by
  have stored := (accepted_of_ofRows built).stored
  rw [stored.mapText_eq, stored.tableText_eq]
  exact ofText_iff.2 ⟨map, table, readMap_iff.2 rfl, readTable_written 0 table, built⟩

end Board

/-! ## Levels -/

namespace Level

variable {sheet : Sheet} {level : Level}

/-- A level is read again from its sheet. -/
lemma ofSheet_toSheet (built : level.board.Built) : ofSheet level.toSheet = .ok level := by
  obtain ⟨map, table, built⟩ := built.exists_ofRows
  exact map_eq_ok.2 ⟨level.board, Board.ofText_written built, rfl⟩

/-- A level writes down the sheet that it was read from, but for the words of the bearings. -/
lemma toSheet_of_ofSheet (reads : ofSheet sheet = .ok level) :
    level.toSheet = { sheet with expected := sheet.expected.map Board.tidyRow } := by
  obtain ⟨board, built, rfl⟩ := map_eq_ok.1 reads
  obtain ⟨map, table, map', table', built⟩ := Board.ofText_iff.1 built
  have stored := (Board.accepted_of_ofRows built).stored
  rw [toSheet, stored.mapText_eq, stored.tableText_eq, ← Board.readMap_iff.1 map',
    ← Board.tidyRow_of_readTable table']

/-- A level writes down the sheet that it was read from, with every direction in the letters of a compass
rose and one blank between any two words; and it is read from this again. So is every board that was built
from tables. -/
theorem toSheet_tidies :
    (∀ sheet level, ofSheet sheet = .ok level →
      level.toSheet = { sheet with expected := sheet.expected.map Board.tidyRow } ∧
        ofSheet level.toSheet = .ok level) ∧
    ∀ map table board, Board.ofRows map table = .ok board →
      Board.ofText board.mapText board.tableText = .ok board := by
  refine ⟨fun sheet level reads => ⟨toSheet_of_ofSheet reads, ofSheet_toSheet ?_⟩,
    fun map table board built => Board.ofText_written built⟩
  obtain ⟨board, built, rfl⟩ := map_eq_ok.1 reads
  exact .texts built

/-- Directions in any letters, and more blanks than one. -/
theorem toSheet_tidies_corridor :
    ∃ level, ofSheet ⟨"corridor", ["SF"], [" eAsT\t- "], .east, none⟩ = .ok level ∧
      Board.ofRows [[.start, .finish]] [[some .east, none]] = .ok level.board ∧
      level.toSheet = ⟨"corridor", ["SF"], ["E -"], .east, none⟩ ∧
      ofSheet level.toSheet = .ok level ∧
      Board.ofText level.board.mapText level.board.tableText = .ok level.board := by
  have reads : ofSheet ⟨"corridor", ["SF"], [" eAsT\t- "], .east, none⟩ = .ok ⟨"corridor",
      ⟨2, 1, #[.start, .finish], #[some .east, none], ⟨0, 0⟩, ⟨1, 0⟩⟩, .east, none⟩ := by
    with_unfolding_all rfl
  have built : Board.ofRows [[.start, .finish]] [[some .east, none]] =
      .ok ⟨2, 1, #[.start, .finish], #[some .east, none], ⟨0, 0⟩, ⟨1, 0⟩⟩ := by
    with_unfolding_all rfl
  have tidy : Board.tidyRow " eAsT\t- " = "E -" := by
    decide +kernel
  obtain ⟨sheet, again⟩ := toSheet_tidies.1 _ _ reads
  rw [List.map_singleton, tidy] at sheet
  exact ⟨_, reads, built, sheet, again, toSheet_tidies.2 _ _ _ built⟩

end Level

end BlockPuzzle
