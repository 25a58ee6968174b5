import Mathlib.Data.List.Chain
import BlockPuzzle.Proofs.Board.Tables

/-!
# Where the bearings lead

Framed tables make a board just if the bearings lead from START to FINISH over distinct passable
points (`Board.Trek`). If they do not, they come to a point again, or to one that they do not lead on
from, and the error names this point: `Board.ofRows_ok_iff_trek`.
-/

namespace BlockPuzzle

namespace Board

/-! ## Treks -/

/-- The agent may stand at a point of a map. -/
def Passable (map : List (List Tile)) (p : Point) : Prop :=
  ∃ tile, cell? map p = some tile ∧ tile ≠ .wall

/-- The bearing at a point leads to another point. -/
def Leads (table : List (List (Option Bearing))) (p q : Point) : Prop :=
  ∃ bearing, bearing? table p = some bearing ∧ q = p.step bearing

/-- The bearings lead from one point to another along a path of distinct passable points. -/
structure Trek (map : List (List Tile)) (table : List (List (Option Bearing))) (p q : Point)
    (path : List Point) : Prop where
  first : path.head? = some p
  last : path.getLast? = some q
  leads : path.IsChain (Leads table)
  passable : ∀ a ∈ path, Passable map a
  distinct : path.Nodup

/-- The bearings lead from START back to a point of their path, and the path does not come to
FINISH. -/
def LoopsAt (map : List (List Tile)) (table : List (List (Option Bearing)))
    (start finish p : Point) : Prop :=
  ∃ q path, Trek map table start q path ∧ finish ∉ path ∧ Leads table q p ∧ p ∈ path

/-- The bearings lead from START to a point without coming to FINISH, and do not lead on from there:
it has no bearing, or its bearing leads out of the map or onto a wall. -/
def StuckAt (map : List (List Tile)) (table : List (List (Option Bearing)))
    (start finish p : Point) : Prop :=
  ∃ path, Trek map table start p path ∧ finish ∉ path ∧ ∀ q, Leads table p q → ¬ Passable map q

variable {map : List (List Tile)} {table : List (List (Option Bearing))} {board : Board}
  {start finish p q : Point} {path before fresh : List Point}

/-- A passable point is a trek by itself. -/
lemma Trek.single (passable : Passable map p) : Trek map table p p [p] :=
  ⟨rfl, rfl, List.isChain_singleton p, by simpa using passable, List.nodup_singleton p⟩

/-- A trek goes on where the bearing at its end leads to a new passable point. -/
lemma Trek.snoc (trek : Trek map table start p path) (leads : Leads table p q)
    (passable : Passable map q) (new : q ∉ path) : Trek map table start q (path ++ [q]) := by
  refine ⟨?_, List.getLast?_concat, ?_, ?_, ?_⟩
  · rw [List.head?_append, trek.first]
    rfl
  · refine List.isChain_append.2 ⟨trek.leads, List.isChain_singleton q, ?_⟩
    intro a last b head
    rw [trek.last] at last
    cases last
    cases head
    exact leads
  · exact List.forall_mem_append.2 ⟨trek.passable, by simpa using passable⟩
  · rw [← List.concat_eq_append]
    exact trek.distinct.concat new

/-- A trek comes to its end only once. -/
lemma Trek.split (trek : Trek map table start p path) :
    ∃ before, path = before ++ [p] ∧ p ∉ before := by
  obtain ⟨before, rfl⟩ := List.getLast?_eq_some_iff.1 trek.last
  have apart := List.nodup_append.1 trek.distinct
  exact ⟨before, rfl, fun mem => apart.2.2 p mem p (List.mem_singleton_self p) rfl⟩

/-- What is left of a trek behind its first point is a trek. -/
lemma Trek.tail (trek : Trek map table start p (start :: q :: path)) :
    Trek map table q p (q :: path) := by
  refine ⟨rfl, ?_, (List.isChain_cons_cons.1 trek.leads).2, ?_, (List.nodup_cons.1 trek.distinct).2⟩
  · rw [← trek.last, List.getLast?_cons_cons]
  · exact (List.forall_mem_cons.1 trek.passable).2

/-! ## Following a trek -/

section

variable (stored : Stored map table board)

include stored

/-- The check goes on at the point that a fresh one leads to, and this one is not fresh any more. -/
lemma checkChain_leads (mem : p ∈ fresh) (ne : p ≠ board.finish) (leads : Leads table p q)
    (passable : Passable map q) :
    board.checkChain fresh p = board.checkChain (fresh.erase p) q := by
  obtain ⟨bearing, expected, rfl⟩ := leads
  rw [← stored.expectedAt?_eq] at expected
  have open' := stored.passableAt_iff.2 passable
  rw [checkChain, if_neg ne, dif_pos mem, expected]
  simp only [open', if_true]

/-- The chain is followed along a trek that does not come to FINISH before its end. -/
lemma checkChain_trek (trek : Trek map table start q (before ++ [q]))
    (mem : ∀ a ∈ before ++ [q], a ∈ fresh) (ahead : board.finish ∉ before) :
    board.checkChain fresh start = board.checkChain (fresh.diff before) q := by
  -- along the trek from its start; each step takes one point from those that are fresh
  induction before generalizing start fresh with
  | nil =>
    cases trek.first
    rw [List.diff_nil]
  | cons p before ih =>
    cases trek.first
    obtain ⟨now, later⟩ := List.forall_mem_cons.1 mem
    obtain ⟨r, path, split⟩ : ∃ r path, before ++ [q] = r :: path :=
      List.exists_cons_of_ne_nil (by simp)
    rw [List.cons_append, split] at trek
    have leads := (List.isChain_cons_cons.1 trek.leads).1
    have passable := trek.passable r (by simp)
    have apart := (List.nodup_cons.1 trek.distinct).1
    rw [checkChain_leads stored now (fun same => ahead (same ▸ List.mem_cons_self)) leads passable,
      List.diff_cons]
    refine ih (split ▸ trek.tail) (fun a mem => ?_) (fun mem => ahead (List.mem_cons_of_mem p mem))
    have other : a ≠ p := fun same => apart (split ▸ same ▸ mem)
    exact (List.mem_erase_of_ne other).2 (later a mem)

/-- A trek to FINISH is a chain. -/
lemma checkChain_of_trek (mem : ∀ a, Passable map a → a ∈ fresh)
    (trek : Trek map table start board.finish path) : board.checkChain fresh start = .ok () := by
  obtain ⟨before, rfl, apart⟩ := trek.split
  rw [checkChain_trek stored trek (fun a is => mem a (trek.passable a is)) apart, checkChain,
    if_pos rfl]

/-- A chain that loops is cyclic where it comes to a point again. -/
lemma checkChain_of_loopsAt (mem : ∀ a, Passable map a → a ∈ fresh) (nodup : fresh.Nodup)
    (loops : LoopsAt map table start board.finish p) :
    board.checkChain fresh start = .error (.cyclicChain p) := by
  obtain ⟨q, path, trek, ahead, leads, again⟩ := loops
  have passable := trek.passable p again
  obtain ⟨before, rfl, apart⟩ := trek.split
  obtain ⟨ahead', ne⟩ : board.finish ∉ before ∧ board.finish ≠ q := by simpa using ahead
  have here := mem q (trek.passable q (by simp))
  have here : q ∈ fresh.diff before := (List.Nodup.mem_sdiff_iff nodup).2 ⟨here, apart⟩
  have gone : p ∉ (fresh.diff before).erase q := by
    rw [← List.diff_cons_right, List.Nodup.mem_sdiff_iff nodup]
    exact fun left => left.2 (by simpa [or_comm] using again)
  have other : p ≠ board.finish := fun same => ahead (same ▸ again)
  rw [checkChain_trek stored trek (fun a is => mem a (trek.passable a is)) ahead',
    checkChain_leads stored here ne.symm leads passable, checkChain, if_neg other, dif_neg gone]

/-- A chain that is stuck is broken where it is. -/
lemma checkChain_of_stuckAt (mem : ∀ a, Passable map a → a ∈ fresh) (nodup : fresh.Nodup)
    (stuck : StuckAt map table start board.finish p) :
    board.checkChain fresh start = .error (.brokenChain p) := by
  obtain ⟨path, trek, ahead, ends⟩ := stuck
  obtain ⟨before, rfl, apart⟩ := trek.split
  obtain ⟨ahead', ne⟩ : board.finish ∉ before ∧ board.finish ≠ p := by simpa using ahead
  have here := mem p (trek.passable p (by simp))
  have here : p ∈ fresh.diff before := (List.Nodup.mem_sdiff_iff nodup).2 ⟨here, apart⟩
  rw [checkChain_trek stored trek (fun a is => mem a (trek.passable a is)) ahead', checkChain,
    if_neg ne.symm, dif_pos here]
  cases expected : board.expectedAt? p with
  | none => rfl
  | some bearing =>
    have blocked : ¬ board.passableAt (p.step bearing) = true := fun passable =>
      ends _ ⟨bearing, stored.expectedAt?_eq p ▸ expected, rfl⟩ (stored.passableAt_iff.1 passable)
    simp only [blocked]
    rfl

/-- From every trek that has not come to FINISH before, the bearings lead on to FINISH, to a point
again, or to where they do not lead on. -/
lemma exists_outcome (trek : Trek map table start p (before ++ [p])) (ahead : board.finish ∉ before)
    (left : ∀ a, Passable map a → a ∉ before → a ∈ fresh) :
    (∃ path, Trek map table start board.finish path) ∨
      (∃ q, LoopsAt map table start board.finish q) ∨
        ∃ q, StuckAt map table start board.finish q := by
  obtain ⟨before', same, apart⟩ := trek.split
  obtain rfl := List.append_cancel_right same
  have passable := trek.passable p (by simp)
  -- the trek grows with the calls of the check, so the points that are fresh get fewer
  fun_induction checkChain board fresh p generalizing before with
  | case1 => exact .inl ⟨_, trek⟩
  | case2 fresh p ne mem expected =>
    refine .inr (.inr ⟨p, _, trek, by simpa using ⟨ahead, Ne.symm ne⟩, ?_⟩)
    rintro q ⟨bearing, leads, -⟩
    rw [← stored.expectedAt?_eq, expected] at leads
    cases leads
  | case3 fresh p ne mem bearing expected next open' =>
    rename_i ih
    have ahead' : board.finish ∉ before ++ [p] := by simpa using ⟨ahead, Ne.symm ne⟩
    have leads : Leads table p next := ⟨bearing, stored.expectedAt?_eq p ▸ expected, rfl⟩
    have passable' := stored.passableAt_iff.1 open'
    by_cases again : next ∈ before ++ [p]
    · exact .inr (.inl ⟨next, p, _, trek, ahead', leads, again⟩)
    · refine ih (trek.snoc leads passable' again) ahead' (fun a passable new => ?_) rfl again
        passable'
      obtain ⟨new, ne⟩ : a ∉ before ∧ a ≠ p := by simpa using new
      exact (List.mem_erase_of_ne ne).2 (left a passable new)
  | case4 fresh p ne mem bearing expected next =>
    rename_i blocked
    refine .inr (.inr ⟨p, _, trek, by simpa using ⟨ahead, Ne.symm ne⟩, ?_⟩)
    rintro q ⟨bearing', leads, rfl⟩ passable'
    rw [← stored.expectedAt?_eq, expected] at leads
    cases leads
    exact blocked (stored.passableAt_iff.2 passable')
  | case5 fresh p ne gone => exact absurd (left p passable apart) gone

end

/-! ## Accepted tables -/

/-- The bearings of framed tables lead to FINISH, to a point again, or to where they do not lead on
from, and what is built says which. -/
lemma outcome_of_framed (framed : Framed map table start finish) :
    (∀ path, Trek map table start finish path → ∃ board, ofRows map table = .ok board) ∧
      (∀ p, LoopsAt map table start finish p → ofRows map table = .error (.cyclicChain p)) ∧
      (∀ p, StuckAt map table start finish p → ofRows map table = .error (.brokenChain p)) ∧
      ((∃ path, Trek map table start finish path) ∨
        (∃ p, LoopsAt map table start finish p) ∨ ∃ p, StuckAt map table start finish p) := by
  obtain ⟨board, stored, rfl, rfl, built⟩ := ofRows_of_framed framed
  have nodup := (nodup_points board).filter board.passableAt
  have mem : ∀ a, Passable map a → a ∈ board.points.filter board.passableAt := fun a passable =>
    mem_passable.2 (stored.passableAt_iff.2 passable)
  have passable : Passable map board.start := ⟨.start, (framed.start _).2 rfl, by decide⟩
  refine ⟨fun path trek => ⟨board, ?_⟩, fun p loops => ?_, fun p stuck => ?_, ?_⟩
  · rw [built, checkChain_of_trek stored mem trek]
    rfl
  · rw [built, checkChain_of_loopsAt stored mem nodup loops]
    rfl
  · rw [built, checkChain_of_stuckAt stored mem nodup stuck]
    rfl
  · have trek : Trek map table board.start board.start ([] ++ [board.start]) := .single passable
    exact exists_outcome stored trek (by simp) fun a passable _ => mem a passable

/-- Two tables make a board just if they are framed and the bearings lead from START to FINISH over
distinct passable points. If only the bearings are at fault, they lead to a point again, or to one that
they do not lead on from, and the error names it. -/
theorem ofRows_ok_iff_trek (map : List (List Tile)) (table : List (List (Option Bearing))) :
    ((∃ board, ofRows map table = .ok board) ↔
      ∃ start finish, Framed map table start finish ∧ ∃ path, Trek map table start finish path) ∧
    ∀ start finish, Framed map table start finish →
      (∀ p, LoopsAt map table start finish p → ofRows map table = .error (.cyclicChain p)) ∧
      (∀ p, StuckAt map table start finish p → ofRows map table = .error (.brokenChain p)) ∧
      ((∃ path, Trek map table start finish path) ∨
        (∃ p, LoopsAt map table start finish p) ∨ ∃ p, StuckAt map table start finish p) := by
  refine ⟨⟨?_, ?_⟩, fun start finish framed => (outcome_of_framed framed).2⟩
  · rintro ⟨board, built⟩
    have framed := framed_of_ofRows built
    obtain ⟨-, loops, stuck, trek | ⟨p, is⟩ | ⟨p, is⟩⟩ := outcome_of_framed framed
    · exact ⟨_, _, framed, trek⟩
    · cases built.symm.trans (loops p is)
    · cases built.symm.trans (stuck p is)
  · rintro ⟨start, finish, framed, path, trek⟩
    exact (outcome_of_framed framed).1 path trek

/-- Two points that lead to each other. -/
theorem ofRows_ok_iff_trek_loop :
    ofRows [[.start, .floor, .finish]] [[some .east, some .west, none]] =
      .error (.cyclicChain ⟨0, 0⟩) := by
  have stored : Stored [[.start, .floor, .finish]] [[some .east, some .west, none]]
      ⟨3, 1, #[.start, .floor, .finish], #[some .east, some .west, none], ⟨0, 0⟩, ⟨2, 0⟩⟩ :=
    ⟨rfl, by decide, rfl, rfl, by decide, rfl⟩
  obtain ⟨walls, start, finish⟩ := stored.survey_plots_iff.1 rfl
  have framed : Framed _ _ ⟨0, 0⟩ ⟨2, 0⟩ :=
    ⟨⟨_, List.mem_singleton_self _, by decide⟩, by decide, rfl, start, finish, walls⟩
  have there : Trek [[.start, .floor, .finish]] [[some .east, some .west, none]] ⟨0, 0⟩ ⟨1, 0⟩
      ([⟨0, 0⟩] ++ [⟨1, 0⟩]) :=
    (Trek.single ⟨.start, rfl, by decide⟩).snoc ⟨.east, rfl, rfl⟩ ⟨.floor, rfl, by decide⟩ (by decide)
  exact ((ofRows_ok_iff_trek _ _).2 _ _ framed).1 _
    ⟨_, _, there, by decide, ⟨.west, rfl, rfl⟩, by decide⟩

end Board

end BlockPuzzle
