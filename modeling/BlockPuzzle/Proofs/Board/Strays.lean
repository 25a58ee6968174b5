import Mathlib.Data.List.Perm.Subperm
import BlockPuzzle.Proofs.Board.Chain
import BlockPuzzle.Proofs.Board.Written

/-!
# Trails and strays

The trail of a board that was built is the trek that the check has found: it leads from START to FINISH
over distinct points, and at each of them only the bearing to the next one is open. The strays are the
other points at which one may stand, row by row: `Board.Charted`.
-/

namespace BlockPuzzle

namespace Board

/-- A point comes before another one when the map is read row by row. -/
def Precedes (p q : Point) : Prop :=
  p.y < q.y ∨ p.y = q.y ∧ p.x < q.x

/-- Where one may go on a board: the trail leads over distinct points from START to FINISH, no point has
two clear passages, and those on the trail have one until FINISH, to the next point. The trail and the
strays are all points at which one may stand. -/
structure Charted (board : Board) : Prop where
  first : board.trail.head? = some board.start
  last : board.trail.getLast? = some board.finish
  distinct : board.trail.Nodup
  short : board.trail.length ≤ board.tiles.size
  along : board.trail.IsChain fun p q =>
    ∃ bearing, board.expectedAt? p = some bearing ∧ q = p.step bearing
  single : ∀ p toward other, board.passage p toward = .clear → board.passage p other = .clear →
    toward = other
  onward : board.trail.IsChain fun p q =>
    ∃ bearing, q = p.step bearing ∧ ∀ toward, board.passage p toward = .clear ↔ toward = bearing
  once : (board.trail ++ board.strays).Nodup
  all : ∀ p, p ∈ board.trail ++ board.strays ↔ ∃ tile, board.tileAt? p = some tile ∧ tile ≠ .wall
  ordered : board.strays.Pairwise Precedes

variable {map : List (List Tile)} {table : List (List (Option Bearing))} {board : Board} {p q : Point}
  {path path' : List Point}

/-! ## The trail is a trek -/

/-- Only one route leads from a point to FINISH, since no point has two clear passages. -/
lemma Route.unique (route : board.Route p path) (route' : board.Route p path') : path = path' := by
  induction route generalizing path' with
  | arrived =>
    cases route' with
    | arrived => rfl
    | step ne => exact absurd rfl ne
  | step ne expected _ _ ih =>
    cases route' with
    | arrived => exact absurd rfl ne
    | step _ expected' _ route' =>
      rw [expected] at expected'
      cases expected'
      rw [ih route']

/-- A trek to FINISH is a route. -/
lemma Trek.route (stored : Stored map table board) (trek : Trek map table p board.finish path) :
    board.Route p path := by
  induction path generalizing p with
  | nil => cases trek.first
  | cons p' path ih =>
    obtain rfl := Option.some.inj trek.first
    cases path with
    | nil =>
      cases trek.last
      exact .arrived
    | cons q path =>
      have ne : p' ≠ board.finish := by
        intro same
        have last := trek.last
        rw [List.getLast?_cons_cons] at last
        exact (List.nodup_cons.1 trek.distinct).1 (same ▸ List.mem_of_getLast? last)
      obtain ⟨bearing, expected, rfl⟩ := (List.isChain_cons_cons.1 trek.leads).1
      have passable := stored.passableAt_iff.2 (trek.passable (p'.step bearing) (by simp))
      exact .step ne (stored.expectedAt?_eq p' ▸ expected) passable (ih trek.tail)

/-- The trail of a board that was built is a trek from START to FINISH. -/
lemma trek_trail (built : ofRows map table = .ok board) :
    Trek map table board.start board.finish board.trail := by
  have accepted := accepted_of_ofRows built
  obtain ⟨-, loops, stuck, ⟨path, trek⟩ | ⟨p, is⟩ | ⟨p, is⟩⟩ :=
    outcome_of_framed (framed_of_ofRows built)
  · rw [accepted.route_trail.unique (trek.route accepted.stored)]
    exact trek
  · cases built.symm.trans (loops p is)
  · cases built.symm.trans (stuck p is)

/-! ## Strays -/

/-- The points of a board are listed row by row. -/
lemma pairwise_points (board : Board) : board.points.Pairwise Precedes := by
  unfold points
  refine List.pairwise_flatMap.2 ⟨fun y _ => ?_, ?_⟩
  · rw [List.pairwise_map]
    refine List.pairwise_lt_range.imp fun lt => .inr ⟨rfl, ?_⟩
    exact Int.ofNat_lt.2 lt
  · refine List.pairwise_lt_range.imp fun {y y'} lt => ?_
    intro p mem p' mem'
    obtain ⟨x, -, rfl⟩ := List.mem_map.1 mem
    obtain ⟨x', -, rfl⟩ := List.mem_map.1 mem'
    exact .inl (Int.ofNat_lt.2 lt)

/-- The strays are the passable points off the trail. -/
lemma mem_strays : p ∈ board.strays ↔ board.passableAt p = true ∧ p ∉ board.trail := by
  unfold strays
  simp only [List.mem_filter, Bool.and_eq_true, Bool.not_eq_true', List.contains_eq_mem,
    decide_eq_false_iff_not]
  rw [← and_assoc, ← List.mem_filter, mem_passable]

/-- Trail and strays have no point in common, and list none twice. -/
lemma nodup_trail_strays (distinct : board.trail.Nodup) : (board.trail ++ board.strays).Nodup := by
  refine List.nodup_append'.2 ⟨distinct, (nodup_points board).filter _, fun p trail stray => ?_⟩
  exact (mem_strays.1 stray).2 trail

/-- What one may find on a board that was built. -/
theorem charted_of_built (built : board.Built) : board.Charted := by
  obtain ⟨map, table, built⟩ := built.exists_ofRows
  have accepted := accepted_of_ofRows built
  have stored := accepted.stored
  have trek := trek_trail built
  have passable : ∀ p ∈ board.trail, board.passableAt p = true := fun p mem =>
    stored.passableAt_iff.2 (trek.passable p mem)
  have expected : ∀ {p q}, Leads table p q → ∃ bearing, board.expectedAt? p = some bearing ∧
      q = p.step bearing := by
    rintro p q ⟨bearing, expected, rfl⟩
    exact ⟨bearing, stored.expectedAt?_eq p ▸ expected, rfl⟩
  refine ⟨trek.first, trek.last, trek.distinct, ?_, trek.leads.imp fun _ _ => expected, ?_, ?_,
    nodup_trail_strays trek.distinct, fun p => ?_, ?_⟩
  · rw [← accepted.length_points]
    have inside : board.trail ⊆ board.points := fun p mem =>
      (List.mem_filter.1 (mem_passable.2 (passable p mem))).1
    exact (List.subperm_of_subset trek.distinct inside).length_le
  · intro p toward other clear clear'
    have same := (passage_eq_clear_iff.1 clear).1.symm.trans (passage_eq_clear_iff.1 clear').1
    exact Option.some.inj same
  · refine trek.leads.imp_of_mem_imp fun p q _ mem leads => ?_
    obtain ⟨bearing, expected, rfl⟩ := expected leads
    refine ⟨bearing, rfl, fun toward => ?_⟩
    rw [passage_eq_clear_iff, expected]
    constructor
    · rintro ⟨same, -⟩
      exact (Option.some.inj same).symm
    · rintro rfl
      exact ⟨rfl, passable _ mem⟩
  · rw [List.mem_append, mem_strays, stored.tileAt?_eq, ← stored.passableAt_iff]
    constructor
    · rintro (trail | ⟨stray, -⟩)
      · exact passable p trail
      · exact stray
    · intro here
      exact (em (p ∈ board.trail)).imp_right fun beside => ⟨here, beside⟩
  · exact (pairwise_points board).filter _

/-- A diagonal step from START to FINISH, with a point beside it. -/
theorem charted_of_built_diagonal :
    Built ⟨2, 2, #[.start, .floor, .wall, .finish], #[some .southEast, some .east, none, none],
      ⟨0, 0⟩, ⟨1, 1⟩⟩ ∧
    Charted ⟨2, 2, #[.start, .floor, .wall, .finish], #[some .southEast, some .east, none, none],
      ⟨0, 0⟩, ⟨1, 1⟩⟩ := by
  have built : ofRows [[.start, .floor], [.wall, .finish]]
      [[some .southEast, some .east], [none, none]] =
      .ok ⟨2, 2, #[.start, .floor, .wall, .finish], #[some .southEast, some .east, none, none],
        ⟨0, 0⟩, ⟨1, 1⟩⟩ := by
    with_unfolding_all rfl
  exact ⟨.tables built, charted_of_built (.tables built)⟩

end Board

end BlockPuzzle
