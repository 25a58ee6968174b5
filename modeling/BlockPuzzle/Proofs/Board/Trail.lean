import Mathlib.Tactic.Lemma
import BlockPuzzle.Board.Check

/-!
# The trail of a board

A board that `Board.ofRows` accepts has a trail that leads from START to FINISH: `Board.Route` says
where the expected bearings lead, `Board.route_trail` that they lead along the trail, and
`Board.start_ne_finish` that it has at least one step. `steps` lists the steps of a path.
-/

namespace BlockPuzzle

/-! ## Steps of a path -/

/-- The steps of a path, each from one point to the next one. -/
def steps (path : List Point) : List (Point × Point) :=
  path.zip path.tail

/-- A path that goes on from its last point has one more step. -/
lemma steps_snoc (path : List Point) (p q : Point) :
    steps (path ++ [p, q]) = steps (path ++ [p]) ++ [(p, q)] := by
  induction path with
  | nil => rfl
  | cons a path ih =>
    cases path with
    | nil => rfl
    | cons b path => simpa [steps] using ih

/-- The steps of the beginning of a path are the beginning of its steps. -/
lemma steps_prefix (path rest : List Point) (p : Point) :
    steps (path ++ [p]) <+: steps (path ++ p :: rest) := by
  induction rest generalizing path p with
  | nil => exact List.prefix_rfl
  | cons q rest ih =>
    have longer := ih (path ++ [p]) q
    simp only [List.append_assoc, List.cons_append, List.nil_append] at longer
    rw [steps_snoc] at longer
    exact (List.prefix_append _ _).trans longer

/-- A path has one step less than points. -/
lemma length_steps (path : List Point) : (steps path).length = path.length - 1 := by
  simp [steps]

namespace Board

/-- A passage is clear toward the expected bearing, if it leads to a point at which one may stand. -/
lemma passage_eq_clear_iff {board : Board} {p : Point} {toward : Bearing} :
    board.passage p toward = .clear ↔
      board.expectedAt? p = some toward ∧ board.passableAt (p.step toward) = true := by
  unfold passage passableAt
  cases board.tileAt? (p.step toward) with
  | none => simp
  | some tile =>
    cases tile with
    | wall => simp [Tile.passable]
    | _ =>
      simp only [Tile.passable, bne_iff_ne, ne_eq, reduceCtorEq, not_false_eq_true, and_true]
      split <;> simp [*]

/-! ## Routes -/

/-- The expected bearings lead from a point along a path to FINISH, and never onto a wall. -/
inductive Route (board : Board) : Point → List Point → Prop where
  | arrived :
    Route board board.finish [board.finish]
  | step {p bearing path} :
    p ≠ board.finish →
    board.expectedAt? p = some bearing →
    board.passableAt (p.step bearing) = true →
    Route board (p.step bearing) path →
    Route board p (p :: path)

/-- A chain that has been checked is a route, if it is followed far enough. -/
lemma route_of_checkChain {board : Board} {fresh : List Point} {p : Point} {n : Nat}
    (checked : board.checkChain fresh p = .ok ()) (enough : fresh.length ≤ n) :
    board.Route p (board.follow n p) := by
  fun_induction checkChain board fresh p generalizing n with
  | case1 =>
    cases n with
    | zero => exact .arrived
    | succ n =>
      rw [follow, if_pos rfl]
      exact .arrived
  | case2 => cases checked
  | case3 fresh p ne mem bearing expected next passable =>
    rename_i ih
    have pos := List.length_pos_of_mem mem
    obtain ⟨n, rfl⟩ : ∃ m, n = m + 1 := ⟨n - 1, by omega⟩
    rw [follow, if_neg ne, expected]
    refine .step ne expected passable (ih checked ?_)
    rw [List.length_erase_of_mem mem]
    omega
  | case4 => cases checked
  | case5 => cases checked

/-! ## Accepted boards -/

/-- All that `Board.ofRows` has found out about two tables and the board made of them. -/
structure Accepted (map : List (List Tile)) (table : List (List (Option Bearing))) (board : Board) :
    Prop where
  height : map.length = board.height
  rows : ∀ row ∈ map, row.length = board.width
  tiles : board.tiles = map.flatten.toArray
  tableHeight : table.length = board.height
  tableRows : ∀ row ∈ table, row.length = board.width
  expected : board.expected = table.flatten.toArray
  landmarks : survey ⟨none, none⟩ (plots map table) = .ok ⟨some board.start, some board.finish⟩
  chain : board.checkChain (board.points.filter board.passableAt) board.start = .ok ()

/-- A board that is built is accepted. -/
lemma accepted_of_ofRows {map table board} (built : ofRows map table = .ok board) :
    Accepted map table board := by
  unfold ofRows at built
  simp only [bind, Except.bind, pure, Except.pure, throw, throwThe, MonadExceptOf.throw] at built
  generalize (map.head?.map List.length).getD 0 = width at built
  by_cases empty : map.length = 0 ∨ width = 0
  · rw [if_pos empty] at built
    cases built
  rw [if_neg empty] at built
  cases ragged : map.findIdx? (fun row => row.length != width) with
  | some row =>
    rw [ragged] at built
    cases built
  | none =>
    rw [ragged] at built
    simp only at built
    by_cases odd : table.length ≠ map.length ∨
        (table.find? (fun row => row.length != width)).isSome = true
    · rw [if_pos odd] at built
      cases built
    rw [if_neg odd] at built
    simp only [not_or, Decidable.not_not, Option.not_isSome_iff_eq_none] at odd
    cases surveyed : survey ⟨none, none⟩ (plots map table) with
    | error e =>
      rw [surveyed] at built
      cases built
    | ok found =>
      obtain ⟨start, finish⟩ := found
      rw [surveyed] at built
      cases start with
      | none => cases built
      | some start =>
        cases finish with
        | none => cases built
        | some finish =>
          simp only at built
          split at built
          · cases built
          · next v chain =>
            cases built
            refine ⟨rfl, ?_, rfl, odd.1, ?_, rfl, surveyed, chain⟩
            · simpa using List.findIdx?_eq_none_iff.1 ragged
            · simpa using List.find?_eq_none.1 odd.2

/-- A place stands for what the tables hold there. -/
lemma tile_of_mem_plots {map table} {plot : Plot} (mem : plot ∈ plots map table) :
    ∃ (y x : Nat), plot.point = ⟨x, y⟩ ∧ (map[y]?.bind (·[x]?)) = some plot.tile := by
  unfold plots rowPlots at mem
  simp only [List.mem_flatMap, List.mem_map, Prod.exists, List.mem_zipIdx_iff_getElem?] at mem
  obtain ⟨tiles, bearings, y, row, tile, bearing, x, place, rfl⟩ := mem
  refine ⟨y, x, rfl, ?_⟩
  rw [List.getElem?_zip_eq_some] at row place
  simp only [row.1, Option.bind_some, place.1]

/-- A survey finds START and FINISH at places that hold them, or keeps what was found before. -/
lemma landmarks_of_survey {found found' : Landmarks} {places : List Plot}
    (surveyed : survey found places = .ok found') :
    (found'.start = found.start ∨
      ∃ plot ∈ places, plot.tile = .start ∧ found'.start = some plot.point) ∧
    (found'.finish = found.finish ∨
      ∃ plot ∈ places, plot.tile = .finish ∧ found'.finish = some plot.point) := by
  induction places generalizing found with
  | nil =>
    cases surveyed
    exact ⟨.inl rfl, .inl rfl⟩
  | cons plot places ih =>
    have later : ∀ {tile : Tile} {point : Option Point},
        (∃ plot ∈ places, plot.tile = tile ∧ point = some plot.point) →
        ∃ place ∈ plot :: places, place.tile = tile ∧ point = some place.point := by
      rintro tile point ⟨place, mem, is⟩
      exact ⟨place, List.mem_cons_of_mem _ mem, is⟩
    simp only [survey] at surveyed
    cases tile : plot.tile with
    | start =>
      simp only [tile] at surveyed
      by_cases second : found.start.isSome = true
      · rw [if_pos second] at surveyed
        cases surveyed
      rw [if_neg second] at surveyed
      obtain ⟨start, finish⟩ := ih surveyed
      refine ⟨.inr ?_, finish.imp_right later⟩
      obtain start | start := start
      · exact ⟨plot, List.mem_cons_self, tile, start⟩
      · exact later start
    | finish =>
      simp only [tile] at surveyed
      by_cases second : found.finish.isSome = true
      · rw [if_pos second] at surveyed
        cases surveyed
      rw [if_neg second] at surveyed
      obtain ⟨start, finish⟩ := ih surveyed
      refine ⟨start.imp_right later, .inr ?_⟩
      obtain finish | finish := finish
      · exact ⟨plot, List.mem_cons_self, tile, finish⟩
      · exact later finish
    | wall =>
      simp only [tile] at surveyed
      by_cases bearing : plot.expected.isSome = true
      · rw [if_pos bearing] at surveyed
        cases surveyed
      rw [if_neg bearing] at surveyed
      exact (ih surveyed).imp (.imp_right later) (.imp_right later)
    | floor =>
      simp only [tile] at surveyed
      exact (ih surveyed).imp (.imp_right later) (.imp_right later)

variable {map : List (List Tile)} {table : List (List (Option Bearing))} {board : Board}

/-- START is not FINISH. -/
theorem Accepted.start_ne_finish (accepted : Accepted map table board) :
    board.start ≠ board.finish := by
  intro same
  obtain ⟨start, finish⟩ := landmarks_of_survey accepted.landmarks
  obtain start | ⟨s, s_mem, s_tile, s_point⟩ := start
  · cases start
  obtain finish | ⟨f, f_mem, f_tile, f_point⟩ := finish
  · cases finish
  obtain ⟨y, x, place, tile⟩ := tile_of_mem_plots s_mem
  obtain ⟨y', x', place', tile'⟩ := tile_of_mem_plots f_mem
  simp only [Option.some.injEq] at s_point f_point
  rw [s_point, f_point, place, place'] at same
  simp only [Point.mk.injEq, Int.natCast_inj] at same
  obtain ⟨rfl, rfl⟩ := same
  rw [tile, s_tile, f_tile] at tile'
  cases tile'

/-- Rows of equal width make as many cells as a rectangle has. -/
lemma length_flatten {α : Type} {rows : List (List α)} {width : Nat}
    (wide : ∀ row ∈ rows, row.length = width) : rows.flatten.length = rows.length * width := by
  rw [List.length_flatten, List.map_congr_left wide, List.map_const', List.sum_replicate_nat]

/-- A board has as many points as tiles. -/
lemma Accepted.length_points (accepted : Accepted map table board) :
    board.points.length = board.tiles.size := by
  rw [accepted.tiles, List.size_toArray, length_flatten accepted.rows, accepted.height]
  simp [points, List.length_flatMap, List.map_const']

/-- The trail of an accepted board is a route from START. -/
theorem Accepted.route_trail (accepted : Accepted map table board) :
    board.Route board.start board.trail := by
  refine route_of_checkChain accepted.chain ?_
  rw [← accepted.length_points]
  exact List.length_filter_le _ _

end Board

end BlockPuzzle
