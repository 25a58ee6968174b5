import Mathlib.Data.List.Nodup
import BlockPuzzle.Proofs.Board.Trail

/-!
# The tables behind a board

A board is built from a table of tiles and a table of bearings. `Board.Framed` says of two tables that
nothing is wrong with them, apart from where the bearings lead; `Board.ofRows_of_framed` and
`Board.framed_of_ofRows` say that all of it is checked, and nothing else. A board holds at every point
what the tables hold there (`Board.Stored.tileAt?_eq`, `Board.Stored.expectedAt?_eq`).
-/

namespace BlockPuzzle

namespace Board

/-! ## Cells -/

/-- What a table holds at a point, if the point lies inside of it. -/
def cell? {α : Type} (rows : List (List α)) (p : Point) : Option α :=
  if 0 ≤ p.x ∧ 0 ≤ p.y then rows[p.y.toNat]?.bind (·[p.x.toNat]?) else none

/-- The bearing that a table holds at a point, if it holds one. -/
def bearing? (table : List (List (Option Bearing))) (p : Point) : Option Bearing :=
  (cell? table p).join

/-- Tables with which nothing is wrong, apart from where the bearings lead: rectangles of one shape
with one START and one FINISH, and no bearing on a wall. -/
structure Framed (map : List (List Tile)) (table : List (List (Option Bearing)))
    (start finish : Point) : Prop where
  nonempty : ∃ row ∈ map, row ≠ []
  rectangle : ∀ row ∈ map, ∀ row' ∈ map, row.length = row'.length
  shape : table.map List.length = map.map List.length
  start : ∀ p, cell? map p = some .start ↔ p = start
  finish : ∀ p, cell? map p = some .finish ↔ p = finish
  walls : ∀ p, cell? map p = some .wall → bearing? table p = none

/-- At coordinates that are not negative, a table is looked up by row and column. -/
lemma cell?_nat {α : Type} (rows : List (List α)) (x y : Nat) :
    cell? rows ⟨x, y⟩ = rows[y]?.bind (·[x]?) := by
  simp [cell?]

/-- What a table holds, it holds in some row and column. -/
lemma cell?_eq_some {α : Type} {rows : List (List α)} {p : Point} {a : α} :
    cell? rows p = some a ↔ ∃ (x y : Nat) (row : List α),
      p = ⟨x, y⟩ ∧ rows[y]? = some row ∧ row[x]? = some a := by
  constructor
  · intro holds
    obtain ⟨x, y⟩ := p
    unfold cell? at holds
    by_cases inside : 0 ≤ x ∧ 0 ≤ y
    · rw [if_pos inside] at holds
      obtain ⟨row, at_y, at_x⟩ := Option.bind_eq_some_iff.1 holds
      refine ⟨x.toNat, y.toNat, row, ?_, at_y, at_x⟩
      rw [Int.toNat_of_nonneg inside.1, Int.toNat_of_nonneg inside.2]
    · rw [if_neg inside] at holds
      cases holds
  · rintro ⟨x, y, row, rfl, at_y, at_x⟩
    rw [cell?_nat, at_y, Option.bind_some, at_x]

/-- If all rows are equally wide, a cell is found among all cells, put row by row, at the place that
row and column make. -/
lemma getElem?_flatten {α : Type} {rows : List (List α)} {width : Nat}
    (wide : ∀ row ∈ rows, row.length = width) {x : Nat} (lt : x < width) (y : Nat) :
    rows.flatten[y * width + x]? = rows[y]?.bind (·[x]?) := by
  induction rows generalizing y with
  | nil => rfl
  | cons row rows ih =>
    obtain ⟨first, others⟩ := List.forall_mem_cons.1 wide
    cases y with
    | zero =>
      rw [List.flatten_cons, Nat.zero_mul, Nat.zero_add, List.getElem?_append_left (first ▸ lt)]
      rfl
    | succ y =>
      have behind : (y + 1) * width + x = row.length + (y * width + x) := by
        rw [first, Nat.succ_mul]
        omega
      rw [behind, List.flatten_cons, List.getElem?_append_right (Nat.le_add_right _ _),
        Nat.add_sub_cancel_left, ih others]
      rfl

/-- What is stored at the place of a point is what the rows hold there. -/
lemma getElem?_index? {α : Type} {rows : List (List α)} {board : Board}
    (height : rows.length = board.height) (wide : ∀ row ∈ rows, row.length = board.width)
    (p : Point) : (board.index? p).bind (rows.flatten.toArray[·]?) = cell? rows p := by
  obtain ⟨x, y⟩ := p
  unfold index? cell?
  by_cases inside : 0 ≤ x ∧ 0 ≤ y
  · simp only [inside, true_and]
    by_cases fits : x < board.width ∧ y < board.height
    · have lt : x.toNat < board.width := by omega
      rw [if_pos fits, if_pos trivial, Option.bind_some, List.getElem?_toArray,
        getElem?_flatten wide lt]
    · rw [if_neg fits, if_pos trivial, Option.bind_none]
      symm
      refine Option.bind_eq_none_iff.2 fun row at_y => List.getElem?_eq_none ?_
      have low := (List.getElem?_eq_some_iff.1 at_y).1
      rw [wide row (List.mem_of_getElem? at_y)]
      omega
  · rw [if_neg inside, if_neg (fun h => inside ⟨h.1, h.2.1⟩), Option.bind_none]

/-! ## Points -/

/-- The points of a board are those within its width and height. -/
lemma mem_points {board : Board} {p : Point} :
    p ∈ board.points ↔ 0 ≤ p.x ∧ 0 ≤ p.y ∧ p.x < board.width ∧ p.y < board.height := by
  obtain ⟨x, y⟩ := p
  unfold points
  simp only [List.mem_flatMap, List.mem_map, List.mem_range, Point.mk.injEq]
  constructor
  · rintro ⟨y, low, x, wide, rfl, rfl⟩
    omega
  · rintro ⟨_, _, _, _⟩
    exact ⟨y.toNat, by omega, x.toNat, by omega, by omega, by omega⟩

/-- No point of a board is listed twice. -/
lemma nodup_points (board : Board) : board.points.Nodup := by
  unfold points
  refine List.nodup_flatMap.2 ⟨fun y _ => ?_, ?_⟩
  · refine List.nodup_range.map fun x x' same => ?_
    simpa only [Point.mk.injEq, Int.natCast_inj, and_true] using same
  · refine List.nodup_range.imp fun {y y'} other => ?_
    intro p mem mem'
    obtain ⟨x, -, rfl⟩ := List.mem_map.1 mem
    obtain ⟨x', -, same⟩ := List.mem_map.1 mem'
    simp only [Point.mk.injEq, Int.natCast_inj] at same
    exact other same.2.symm

/-- The passable points of the map are those that one may stand at. -/
lemma mem_passable {board : Board} {p : Point} :
    p ∈ board.points.filter board.passableAt ↔ board.passableAt p = true := by
  rw [List.mem_filter]
  refine ⟨And.right, fun passable => ⟨?_, passable⟩⟩
  unfold passableAt tileAt? index? at passable
  rw [mem_points]
  by_contra outside
  rw [if_neg outside] at passable
  cases passable

/-! ## Places -/

/-- A place is one of all places if both tables hold there what it says. -/
lemma mem_plots {map : List (List Tile)} {table : List (List (Option Bearing))} {plot : Plot} :
    plot ∈ plots map table ↔ cell? map plot.point = some plot.tile ∧
      cell? table plot.point = some plot.expected := by
  obtain ⟨p, tile, bearing⟩ := plot
  unfold plots rowPlots
  simp only [List.mem_flatMap, List.mem_map, Prod.exists, List.mem_zipIdx_iff_getElem?,
    Plot.mk.injEq, List.getElem?_zip_eq_some, cell?_eq_some]
  constructor
  · rintro ⟨tiles, bearings, y, ⟨row, row'⟩, _, _, x, ⟨place, place'⟩, rfl, rfl, rfl⟩
    exact ⟨⟨x, y, tiles, rfl, row, place⟩, x, y, bearings, rfl, row', place'⟩
  · rintro ⟨⟨x, y, tiles, rfl, row, place⟩, x', y', bearings, same, row', place'⟩
    simp only [Point.mk.injEq, Int.natCast_inj] at same
    obtain ⟨rfl, rfl⟩ := same
    exact ⟨tiles, bearings, y, ⟨row, row'⟩, tile, bearing, x, ⟨place, place'⟩, rfl, rfl, rfl⟩

/-- The points of the places that hold a tile. -/
def pointsOf (tile : Tile) (places : List Plot) : List Point :=
  (places.filter fun plot => plot.tile = tile).map Plot.point

/-- A plot with the tile that is looked for adds its point. -/
lemma pointsOf_cons_of_eq {plot : Plot} {tile : Tile} (is : plot.tile = tile)
    (places : List Plot) : pointsOf tile (plot :: places) = plot.point :: pointsOf tile places := by
  simp [pointsOf, is]

/-- A plot with another tile adds none. -/
lemma pointsOf_cons_of_ne {plot : Plot} {tile : Tile} (is : plot.tile ≠ tile)
    (places : List Plot) : pointsOf tile (plot :: places) = pointsOf tile places := by
  simp [pointsOf, is]

/-- A survey succeeds if no wall has a bearing and there is at most one START and one FINISH, along
with what was found before. -/
lemma survey_eq_ok_iff {found found' : Landmarks} {places : List Plot} :
    survey found places = .ok found' ↔
      (∀ plot ∈ places, plot.tile = .wall → plot.expected = none) ∧
      found.start.toList ++ pointsOf .start places = found'.start.toList ∧
      found.finish.toList ++ pointsOf .finish places = found'.finish.toList := by
  -- along the places, whatever has been found before them
  induction places generalizing found with
  | nil =>
    have same : ∀ p q : Option Point, p = q ↔ p.toList = q.toList := by
      rintro (_ | p) (_ | q) <;> simp
    obtain ⟨start, finish⟩ := found
    obtain ⟨start', finish'⟩ := found'
    simp [survey, pointsOf, ← same]
  | cons plot places ih =>
    rw [survey, List.forall_mem_cons]
    cases tile : plot.tile with
    | start =>
      have other : plot.tile ≠ .finish := by simp [tile]
      rw [pointsOf_cons_of_eq tile, pointsOf_cons_of_ne other]
      simp only
      cases before : found.start with
      | none =>
        rw [if_neg (by simp), ih]
        simp
      | some p =>
        rw [if_pos Option.isSome_some]
        refine iff_of_false (fun same => by cases same) ?_
        rintro ⟨-, twice, -⟩
        have few : found'.start.toList.length ≤ 1 := Option.length_toList_le
        simp [← twice] at few
    | finish =>
      have other : plot.tile ≠ .start := by simp [tile]
      rw [pointsOf_cons_of_eq tile, pointsOf_cons_of_ne other]
      simp only
      cases before : found.finish with
      | none =>
        rw [if_neg (by simp), ih]
        simp
      | some p =>
        rw [if_pos Option.isSome_some]
        refine iff_of_false (fun same => by cases same) ?_
        rintro ⟨-, -, twice⟩
        have few : found'.finish.toList.length ≤ 1 := Option.length_toList_le
        simp [← twice] at few
    | wall =>
      have others : plot.tile ≠ .start ∧ plot.tile ≠ .finish := by simp [tile]
      rw [pointsOf_cons_of_ne others.1, pointsOf_cons_of_ne others.2]
      simp only
      cases bearing : plot.expected with
      | none =>
        rw [if_neg (by simp), ih]
        simp
      | some b => simp
    | floor =>
      have others : plot.tile ≠ .start ∧ plot.tile ≠ .finish := by simp [tile]
      rw [pointsOf_cons_of_ne others.1, pointsOf_cons_of_ne others.2]
      simp only
      rw [ih]
      simp

/-! ## What is stored -/

/-- A board holds two tables of its own shape. -/
structure Stored (map : List (List Tile)) (table : List (List (Option Bearing))) (board : Board) :
    Prop where
  height : map.length = board.height
  rows : ∀ row ∈ map, row.length = board.width
  tiles : board.tiles = map.flatten.toArray
  tableHeight : table.length = board.height
  tableRows : ∀ row ∈ table, row.length = board.width
  expected : board.expected = table.flatten.toArray

variable {map : List (List Tile)} {table : List (List (Option Bearing))} {board : Board}
  {start finish : Point}

/-- A board that is accepted stores its tables. -/
lemma Accepted.stored (accepted : Accepted map table board) : Stored map table board :=
  ⟨accepted.height, accepted.rows, accepted.tiles, accepted.tableHeight, accepted.tableRows,
    accepted.expected⟩

namespace Stored

/-- A board has the tiles of its map. -/
theorem tileAt?_eq (stored : Stored map table board) (p : Point) :
    board.tileAt? p = cell? map p := by
  unfold tileAt?
  rw [stored.tiles, getElem?_index? stored.height stored.rows]

/-- A board expects the bearings of its table. -/
theorem expectedAt?_eq (stored : Stored map table board) (p : Point) :
    board.expectedAt? p = bearing? table p := by
  unfold expectedAt? bearing?
  rw [stored.expected, getElem?_index? stored.tableHeight stored.tableRows]

/-- The passable points are those of the map that are no walls. -/
lemma passableAt_iff (stored : Stored map table board) {p : Point} :
    board.passableAt p = true ↔ ∃ tile, cell? map p = some tile ∧ tile ≠ .wall := by
  unfold passableAt
  rw [stored.tileAt?_eq]
  cases cell? map p <;> simp [Tile.passable]

/-- Where the map has a tile, the table has a cell. -/
lemma exists_cell (stored : Stored map table board) {p : Point} {tile : Tile}
    (holds : cell? map p = some tile) : ∃ expected, cell? table p = some expected := by
  obtain ⟨x, y, tiles, rfl, at_y, at_x⟩ := cell?_eq_some.1 holds
  obtain ⟨low, -⟩ := List.getElem?_eq_some_iff.1 at_y
  obtain ⟨inside, -⟩ := List.getElem?_eq_some_iff.1 at_x
  rw [stored.rows _ (List.mem_of_getElem? at_y)] at inside
  have low' : y < table.length := by rw [stored.tableHeight, ← stored.height]; exact low
  have inside' : x < table[y].length := by
    rw [stored.tableRows _ (List.getElem_mem low')]
    exact inside
  exact ⟨table[y][x], by simp [cell?_nat, low', inside']⟩

/-- The places are the points of the map, row by row. -/
lemma map_point_plots (stored : Stored map table board) :
    (plots map table).map Plot.point = board.points := by
  have row : ∀ rows ∈ (map.zip table).zipIdx, (rowPlots rows.2 rows.1.1 rows.1.2).map Plot.point =
      (List.range board.width).map fun (x : Nat) => ⟨x, rows.2⟩ := by
    rintro ⟨⟨tiles, bearings⟩, y⟩ mem
    have mem := List.of_mem_zip (List.fst_mem_of_mem_zipIdx mem)
    have wide : (tiles.zip bearings).length = board.width := by
      rw [List.length_zip, stored.rows _ mem.1, stored.tableRows _ mem.2, Nat.min_self]
    rw [rowPlots, List.map_map, ← wide, List.range_eq_range', ← List.zipIdx_map_snd, List.map_map]
    rfl
  have high : (map.zip table).length = board.height := by
    rw [List.length_zip, stored.height, stored.tableHeight, Nat.min_self]
  rw [plots, List.map_flatMap, List.flatMap_congr row, points, ← high,
    @List.range_eq_range' (map.zip table).length, ← List.zipIdx_map_snd, List.flatMap_map]

/-- The tile of a kind is at one place just if the survey finds that place alone. -/
lemma pointsOf_plots_iff (stored : Stored map table board) (tile : Tile) (p : Point) :
    pointsOf tile (plots map table) = [p] ↔ ∀ q, cell? map q = some tile ↔ q = p := by
  have mem : ∀ q, q ∈ pointsOf tile (plots map table) ↔ cell? map q = some tile := by
    intro q
    simp only [pointsOf, List.mem_map, List.mem_filter, mem_plots, decide_eq_true_eq]
    constructor
    · rintro ⟨plot, ⟨⟨holds, -⟩, rfl⟩, rfl⟩
      exact holds
    · intro holds
      obtain ⟨expected, holds'⟩ := stored.exists_cell holds
      exact ⟨⟨q, tile, expected⟩, ⟨⟨holds, holds'⟩, rfl⟩, rfl⟩
  -- no point is surveyed twice, so the tile is at one point just if the list of its points is short
  have nodup : (pointsOf tile (plots map table)).Nodup := by
    refine List.Nodup.sublist (List.filter_sublist.map Plot.point) ?_
    rw [stored.map_point_plots]
    exact nodup_points board
  constructor
  · intro same q
    rw [← mem, same, List.mem_singleton]
  · intro only
    refine List.perm_singleton.1 ((List.perm_ext_iff_of_nodup nodup (List.nodup_singleton p)).2 ?_)
    intro q
    rw [mem, only, List.mem_singleton]

/-- A survey of two tables succeeds if no wall has a bearing, and START and FINISH are at one place
each. -/
lemma survey_plots_iff (stored : Stored map table board) :
    survey ⟨none, none⟩ (plots map table) = .ok ⟨some start, some finish⟩ ↔
      (∀ p, cell? map p = some .wall → bearing? table p = none) ∧
      (∀ p, cell? map p = some .start ↔ p = start) ∧
      ∀ p, cell? map p = some .finish ↔ p = finish := by
  rw [survey_eq_ok_iff, ← stored.pointsOf_plots_iff, ← stored.pointsOf_plots_iff]
  refine and_congr_left' ⟨fun walls p wall => ?_, fun walls plot mem wall => ?_⟩
  · obtain ⟨expected, holds⟩ := stored.exists_cell wall
    rw [bearing?, holds]
    exact walls ⟨p, .wall, expected⟩ (mem_plots.2 ⟨wall, holds⟩) rfl
  · obtain ⟨holds, holds'⟩ := mem_plots.1 mem
    have none := walls plot.point (wall ▸ holds)
    rwa [bearing?, holds'] at none

end Stored

/-! ## The checks -/

/-- Tables of which a board has been built are framed. -/
lemma framed_of_ofRows (built : ofRows map table = .ok board) :
    Framed map table board.start board.finish := by
  have accepted := accepted_of_ofRows built
  obtain ⟨walls, start, finish⟩ := accepted.stored.survey_plots_iff.1 accepted.landmarks
  refine ⟨?_, fun row mem row' mem' => ?_, ?_, start, finish, walls⟩
  · obtain ⟨x, y, row, -, at_y, at_x⟩ := cell?_eq_some.1 ((start _).2 rfl)
    exact ⟨row, List.mem_of_getElem? at_y, List.ne_nil_of_mem (List.mem_of_getElem? at_x)⟩
  · rw [accepted.rows row mem, accepted.rows row' mem']
  · rw [List.map_congr_left accepted.rows, List.map_congr_left accepted.tableRows, List.map_const',
      List.map_const', accepted.height, accepted.tableHeight]

/-- Of framed tables a board is built, unless the chain of bearings is at fault. -/
lemma ofRows_of_framed (framed : Framed map table start finish) :
    ∃ board, Stored map table board ∧ board.start = start ∧ board.finish = finish ∧
      ofRows map table =
        (board.checkChain (board.points.filter board.passableAt) start).map fun _ => board := by
  obtain ⟨row, mem, nonempty⟩ := framed.nonempty
  obtain ⟨first, rows, rfl⟩ := List.exists_cons_of_ne_nil (List.ne_nil_of_mem mem)
  have wide : ∀ row ∈ first :: rows, row.length = first.length := fun row mem =>
    framed.rectangle row mem first List.mem_cons_self
  have tableHeight : table.length = (first :: rows).length := by
    simpa using congrArg List.length framed.shape
  have tableWide : ∀ row ∈ table, row.length = first.length := by
    intro row mem
    have length := framed.shape ▸ List.mem_map_of_mem mem
    obtain ⟨row', mem', same⟩ := List.mem_map.1 length
    rw [← same, wide row' mem']
  have stored : Stored (first :: rows) table ⟨first.length, (first :: rows).length,
      (first :: rows).flatten.toArray, table.flatten.toArray, start, finish⟩ :=
    ⟨rfl, wide, rfl, tableHeight, tableWide, rfl⟩
  have surveyed := stored.survey_plots_iff.2 ⟨framed.walls, framed.start, framed.finish⟩
  refine ⟨_, stored, rfl, rfl, ?_⟩
  have nonzero : ¬ ((first :: rows).length = 0 ∨ first.length = 0) := by
    rw [← wide row mem]
    simp [nonempty]
  have even : (first :: rows).findIdx? (fun row => row.length != first.length) = none := by
    simpa using wide
  have even' : table.find? (fun row => row.length != first.length) = none := by
    simpa using tableWide
  unfold ofRows
  simp only [bind, Except.bind, pure, Except.pure, throw, throwThe, MonadExceptOf.throw,
    List.head?_cons, Option.map_some, Option.getD_some]
  simp only [if_neg nonzero, even, even', tableHeight, ne_eq, not_true_eq_false,
    Option.isSome_none, Bool.false_eq_true, or_self, if_false, surveyed]
  cases checkChain _ _ _ <;> rfl

end Board

end BlockPuzzle
