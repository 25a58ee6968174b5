import BlockPuzzle.Proofs.Board.Tables

/-!
# All coordinates

Points have any coordinates that fit signed words of 32 bits (`Point.Fits`), also far away from the map.
A board answers for each of them as its two tables do, and looks nothing up outside of what it stores:
`Board.agrees_of_ofRows`. A step that is held back at the last coordinate is the same to the board as the
exact one (`Point.beside`), since neither leads onto the map: `Board.tileAt?_step`.
-/

namespace BlockPuzzle

/-! ## Exact steps -/

namespace Point

/-- The coordinates fit signed words of 32 bits. -/
structure Fits (p : Point) : Prop where
  x : -2147483648 ≤ p.x ∧ p.x ≤ 2147483647
  y : -2147483648 ≤ p.y ∧ p.y ≤ 2147483647

/-- The neighbour toward a bearing, also if its coordinates do not fit. -/
def beside (p : Point) (bearing : Bearing) : Point :=
  ⟨p.x + bearing.dx, p.y + bearing.dy⟩

/-- A coordinate that fits is left as it is. -/
lemma clamp_eq_self {n : Int} (low : -2147483648 ≤ n) (high : n ≤ 2147483647) : clamp n = n := by
  unfold clamp
  rw [Int.min_eq_left high, Int.max_eq_right low]

/-- A step to a point whose coordinates fit is exact. -/
lemma step_of_fits {p : Point} {bearing : Bearing} (fits : (p.beside bearing).Fits) :
    p.step bearing = p.beside bearing := by
  have x : clamp (p.x + bearing.dx) = p.x + bearing.dx := clamp_eq_self fits.x.1 fits.x.2
  have y : clamp (p.y + bearing.dy) = p.y + bearing.dy := clamp_eq_self fits.y.1 fits.y.2
  rw [step, x, y, beside]

end Point

namespace Board

/-- A point lies on the map. -/
def Contains (board : Board) (p : Point) : Prop :=
  0 ≤ p.x ∧ 0 ≤ p.y ∧ p.x < board.width ∧ p.y < board.height

/-- A board holds at a point what its tables hold in that row and column, if the point lies on the map,
and nothing otherwise. What it looks up is stored, at a place that fits a word of 64 bits. -/
structure Agrees (map : List (List Tile)) (table : List (List (Option Bearing))) (board : Board)
    (p : Point) : Prop where
  inside : board.Contains p → ∃ tiles tile bearings expected,
    map[p.y.toNat]? = some tiles ∧ tiles[p.x.toNat]? = some tile ∧
      table[p.y.toNat]? = some bearings ∧ bearings[p.x.toNat]? = some expected ∧
        board.tileAt? p = some tile ∧ board.expectedAt? p = expected
  outside : ¬ board.Contains p → board.tileAt? p = none ∧ board.expectedAt? p = none
  place : ∀ i, board.index? p = some i →
    i < board.tiles.size ∧ i < board.expected.size ∧ i < 18446744073709551616

variable {map : List (List Tile)} {table : List (List (Option Bearing))} {board : Board} {p : Point}
  {toward : Bearing}

/-- Just the points of the map have a place, row by row. -/
lemma index?_eq_some_iff {i : Nat} : board.index? p = some i ↔
    board.Contains p ∧ i = p.y.toNat * board.width + p.x.toNat := by
  unfold index? Contains
  rw [Option.ite_none_right_eq_some, Option.some_inj, eq_comm (b := i)]

/-- A point without a place lies outside of the map. -/
lemma index?_eq_none_iff : board.index? p = none ↔ ¬ board.Contains p := by
  unfold index? Contains
  rw [ite_eq_right_iff]
  simp only [reduceCtorEq, imp_false]

/-- A point of the map has its place among those that the rows take. -/
lemma place_lt (inside : board.Contains p) :
    p.y.toNat * board.width + p.x.toNat < board.height * board.width := by
  obtain ⟨_, _, narrow, low⟩ := inside
  have row : p.y.toNat + 1 ≤ board.height := by omega
  calc p.y.toNat * board.width + p.x.toNat
      < p.y.toNat * board.width + board.width := by omega
    _ = (p.y.toNat + 1) * board.width := (Nat.succ_mul _ _).symm
    _ ≤ board.height * board.width := Nat.mul_le_mul_right _ row

/-! ## Tables -/

/-- A table of the shape of a board holds something at every point of the map. -/
lemma exists_cell_of_contains {α : Type} {rows : List (List α)} (height : rows.length = board.height)
    (wide : ∀ row ∈ rows, row.length = board.width) (inside : board.Contains p) :
    ∃ row a, rows[p.y.toNat]? = some row ∧ row[p.x.toNat]? = some a ∧ cell? rows p = some a := by
  obtain ⟨right, down, narrow, low⟩ := inside
  have row : p.y.toNat < rows.length := by omega
  have column : p.x.toNat < rows[p.y.toNat].length := by
    rw [wide _ (List.getElem_mem row)]
    omega
  refine ⟨rows[p.y.toNat], rows[p.y.toNat][p.x.toNat], by simp, by simp, ?_⟩
  unfold cell?
  rw [if_pos ⟨right, down⟩, List.getElem?_eq_getElem row, Option.bind_some,
    List.getElem?_eq_getElem column]

namespace Stored

variable (stored : Stored map table board)

include stored

/-- Just the points outside of the map have no tile. -/
lemma tileAt?_eq_none_iff : board.tileAt? p = none ↔ ¬ board.Contains p := by
  constructor
  · intro outside inside
    obtain ⟨-, tile, -, -, holds⟩ := exists_cell_of_contains stored.height stored.rows inside
    rw [stored.tileAt?_eq, holds] at outside
    cases outside
  · intro outside
    unfold tileAt?
    rw [index?_eq_none_iff.2 outside, Option.bind_none]

/-- Both tables take as many places as the map has points. -/
lemma size_eq : board.tiles.size = board.height * board.width ∧
    board.expected.size = board.height * board.width := by
  rw [stored.tiles, stored.expected, List.size_toArray, List.size_toArray,
    length_flatten stored.rows, length_flatten stored.tableRows, stored.height, stored.tableHeight]
  exact ⟨rfl, rfl⟩

/-- At every point the board holds what the tables hold there. -/
lemma agrees (high : board.height ≤ 2147483647) (wide : board.width ≤ 2147483647) (p : Point) :
    Agrees map table board p := by
  refine ⟨fun inside => ?_, fun outside => ?_, fun i place => ?_⟩
  · obtain ⟨tiles, tile, row, column, holds⟩ :=
      exists_cell_of_contains stored.height stored.rows inside
    obtain ⟨bearings, expected, row', column', holds'⟩ :=
      exists_cell_of_contains stored.tableHeight stored.tableRows inside
    refine ⟨tiles, tile, bearings, expected, row, column, row', column', ?_, ?_⟩
    · rw [stored.tileAt?_eq, holds]
    · rw [stored.expectedAt?_eq, bearing?, holds']
      rfl
  · refine ⟨stored.tileAt?_eq_none_iff.2 outside, ?_⟩
    unfold expectedAt?
    rw [index?_eq_none_iff.2 outside]
    rfl
  · obtain ⟨inside, rfl⟩ := index?_eq_some_iff.1 place
    have lt := place_lt inside
    have few : board.height * board.width ≤ 2147483647 * 2147483647 := Nat.mul_le_mul high wide
    rw [stored.size_eq.1, stored.size_eq.2]
    exact ⟨lt, lt, by omega⟩

end Stored

/-! ## Steps -/

/-- The answer that a board would give if steps were not held back at the last coordinates. -/
def exactPassage (board : Board) (p : Point) (toward : Bearing) : Passage :=
  match board.tileAt? (p.beside toward) with
  | none => .outside
  | some .wall => .wall
  | some _ => if board.expectedAt? p = some toward then .clear else .unexpected (board.expectedAt? p)

/-- A step whose exact target does not fit leads to the edge of all coordinates, where no map is. -/
lemma outside_of_not_fits (high : board.height ≤ 2147483647) (wide : board.width ≤ 2147483647)
    (fits : p.Fits) (far : ¬ (p.beside toward).Fits) :
    ¬ board.Contains (p.step toward) ∧ ¬ board.Contains (p.beside toward) := by
  obtain ⟨⟨_, _⟩, _, _⟩ := fits
  have short : -1 ≤ toward.dx ∧ toward.dx ≤ 1 ∧ -1 ≤ toward.dy ∧ toward.dy ≤ 1 := by
    cases toward <;> decide
  constructor
  · rintro ⟨right, down, narrow, low⟩
    simp only [Point.step, Point.clamp] at right down narrow low
    refine far ⟨?_, ?_⟩
    · simp only [Point.beside]
      omega
    · simp only [Point.beside]
      omega
  · rintro ⟨right, down, narrow, low⟩
    exact far ⟨by omega, by omega⟩

/-- The board has the same tile, or none, where a step leads to and where it would exactly lead to. -/
lemma Stored.tileAt?_step (stored : Stored map table board) (high : board.height ≤ 2147483647)
    (wide : board.width ≤ 2147483647) (fits : p.Fits) (toward : Bearing) :
    board.tileAt? (p.step toward) = board.tileAt? (p.beside toward) := by
  by_cases near : (p.beside toward).Fits
  · rw [Point.step_of_fits near]
  · obtain ⟨outside, outside'⟩ := outside_of_not_fits high wide fits near
    rw [stored.tileAt?_eq_none_iff.2 outside, stored.tileAt?_eq_none_iff.2 outside']

/-- Only the tile that is ahead decides whether the answer is that there is none, or that it is a wall.
-/
lemma exactPassage_iff :
    (board.exactPassage p toward = .outside ↔ board.tileAt? (p.beside toward) = none) ∧
      (board.exactPassage p toward = .wall ↔ board.tileAt? (p.beside toward) = some .wall) := by
  unfold exactPassage
  cases board.tileAt? (p.beside toward) with
  | none => simp
  | some tile =>
    by_cases expected : board.expectedAt? p = some toward
    · cases tile <;> simp [expected]
    · cases tile <;> simp [expected]

/-- A board of two tables with sides that fit signed words stores them row by row, and holds at every
point what they hold there. A step leads out of the map, or onto a wall, just if the exact step does, and
also else the answer is the one that the exact step would get. -/
theorem agrees_of_ofRows (built : ofRows map table = .ok board) (high : board.height ≤ 2147483647)
    (wide : board.width ≤ 2147483647) (fits : p.Fits) :
    Stored map table board ∧ Agrees map table board p ∧
      ∀ toward, board.passage p toward = board.exactPassage p toward ∧
        (board.passage p toward = .outside ↔ ¬ board.Contains (p.beside toward)) ∧
        (board.passage p toward = .wall ↔ cell? map (p.beside toward) = some .wall) := by
  have stored := (accepted_of_ofRows built).stored
  refine ⟨stored, stored.agrees high wide p, fun toward => ?_⟩
  have same : board.passage p toward = board.exactPassage p toward := by
    have ahead := stored.tileAt?_step high wide fits toward
    unfold passage exactPassage
    generalize board.tileAt? (p.step toward) = tile at ahead ⊢
    subst ahead
    rfl
  refine ⟨same, ?_, ?_⟩
  · rw [same, exactPassage_iff.1, stored.tileAt?_eq_none_iff]
  · rw [same, exactPassage_iff.2, stored.tileAt?_eq]

/-- From the last column of all, a step to the east leads no further, and not onto the map. -/
theorem agrees_of_ofRows_edge :
    ofRows [[.start, .finish]] [[some .east, none]] =
        .ok ⟨2, 1, #[.start, .finish], #[some .east, none], ⟨0, 0⟩, ⟨1, 0⟩⟩ ∧
      passage ⟨2, 1, #[.start, .finish], #[some .east, none], ⟨0, 0⟩, ⟨1, 0⟩⟩ ⟨2147483647, 0⟩ .east =
        .outside := by
  have built : ofRows [[.start, .finish]] [[some .east, none]] =
      .ok ⟨2, 1, #[.start, .finish], #[some .east, none], ⟨0, 0⟩, ⟨1, 0⟩⟩ := by
    with_unfolding_all rfl
  have fits : Point.Fits ⟨2147483647, 0⟩ := ⟨by decide, by decide⟩
  obtain ⟨-, -, answers⟩ := agrees_of_ofRows built (by decide) (by decide) fits
  refine ⟨built, (answers .east).2.1.2 ?_⟩
  rintro ⟨-, -, narrow, -⟩
  revert narrow
  decide

end Board

end BlockPuzzle
