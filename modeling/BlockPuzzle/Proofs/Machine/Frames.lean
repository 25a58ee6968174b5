import BlockPuzzle.Proofs.Machine.Tick
import BlockPuzzle.Proofs.Program.Printing

/-!
# The frames of a program

A machine that was loaded with a program opens frames for bodies of this program only
(`Program.Unfolds`), whatever its host answers and also if it goes on behind failures:
`Machine.Ticked.of`. So it calls what the program calls, and if all those procedures exist, no tick
ever misses one: `Machine.Ticked.known`.
-/

namespace BlockPuzzle

/-- A frame of a kind can be open for a body: the main statements are in one, statements open more,
and a frame can start another pass. -/
inductive Program.Unfolds (program : Program) : FrameKind → List Statement → Prop where
  | main :
    Unfolds program .block program.main
  | opened {kind body statement kind' body'} :
    Unfolds program kind body →
    statement ∈ body →
    statement.Opens program.procedures kind' body' →
    Unfolds program kind' body'
  | repeated {kind body kind'} :
    Unfolds program kind body →
    kind.Repeats kind' →
    Unfolds program kind' body

/-- All frames of a machine are frames of a program. -/
structure Machine.Of (m : Machine) (program : Program) : Prop where
  procedures : m.procedures = program.procedures
  frames : ∀ frame ∈ m.frames, program.Unfolds frame.kind frame.body

namespace Machine

variable {σ ε : Type} {host : Host σ ε} {program : Program} {m m' : Machine}
  {report : Except (Fault ε) Progress}

/-- A loaded machine runs the statements of its program. -/
lemma load_of (program : Program) (limit : Nat) : (load program limit).Of program :=
  ⟨rfl, List.forall_mem_singleton.2 .main⟩

/-- It still does when it has gone past one of them. -/
lemma Of.moved {frame : Frame} {outer : List Frame} (of : m.Of program)
    (frames : m.frames = frame :: outer) : (m.moved frame outer).Of program := by
  obtain ⟨here, others⟩ := List.forall_mem_cons.1 (frames ▸ of.frames)
  exact ⟨of.procedures, List.forall_mem_cons.2 ⟨here, others⟩⟩

/-- No tick brings in a statement from elsewhere. -/
lemma Ticks.of (ticks : m.Ticks ε report m') (of : m.Of program) : m'.Of program := by
  cases ticks with
  | idle => exact of
  | complete => exact ⟨of.procedures, of.frames⟩
  | passed _ frames => exact of.moved frames
  | opened _ frames next opens =>
    have here := (List.forall_mem_cons.1 (frames ▸ of.frames)).1
    have inner := here.opened (List.mem_of_getElem? next) (of.procedures ▸ opens)
    exact ⟨of.procedures, List.forall_mem_cons.2 ⟨inner, (of.moved frames).frames⟩⟩
  | full _ frames => exact of.moved frames
  | unknown _ frames => exact of.moved frames
  | refused _ frames => exact of.moved frames
  | again _ frames _ repeats =>
    obtain ⟨here, others⟩ := List.forall_mem_cons.1 (frames ▸ of.frames)
    exact ⟨of.procedures, List.forall_mem_cons.2 ⟨here.repeated repeats, others⟩⟩
  | left _ frames =>
    obtain ⟨-, others⟩ := List.forall_mem_cons.1 (frames ▸ of.frames)
    exact ⟨of.procedures, others⟩
  | unanswered => exact of

/-- However many ticks a machine makes, its frames are those of the program. -/
theorem Ticked.of {s s' : σ} {limit : Nat} (ticked : Ticked host (load program limit) s m' s') :
    m'.Of program :=
  ticked.keeps Ticks.of (load_of program limit)

end Machine

/-! ## Calls -/

/-- A body calls what one of its statements calls. -/
lemma mem_bodyCalls {index : Nat} {body : List Statement} :
    index ∈ bodyCalls body ↔ ∃ statement ∈ body, index ∈ statement.calls := by
  induction body with
  | nil => simp [bodyCalls]
  | cons statement body ih => simp [bodyCalls, ih]

/-- Arms call what the body of one of them calls. -/
lemma mem_armsCalls {index : Nat} {arms : List Arm} :
    index ∈ armsCalls arms ↔ ∃ arm ∈ arms, index ∈ bodyCalls arm.body := by
  have calls : ∀ arm : Arm, arm.calls = bodyCalls arm.body := by
    rintro ⟨condition, body⟩
    rfl
  induction arms with
  | nil => simp [armsCalls]
  | cons arm arms ih => simp [armsCalls, ih, calls]

/-- What is called in a body that a statement opens is called in the statement, or in a procedure. -/
lemma Statement.Opens.calls {procedures : List Procedure} {statement : Statement} {kind : FrameKind}
    {body : List Statement} {index : Nat} (opens : statement.Opens procedures kind body)
    (mem : index ∈ bodyCalls body) :
    index ∈ statement.calls ∨ ∃ procedure ∈ procedures, index ∈ bodyCalls procedure.body := by
  cases opens with
  | loop => exact .inl mem
  | whileHolds => exact .inl mem
  | forever => exact .inl mem
  | arm is => exact .inl (List.mem_append_left _ (mem_armsCalls.2 ⟨_, is, mem⟩))
  | otherwise => exact .inl (List.mem_append_right _ mem)
  | call called => exact .inr ⟨_, List.mem_of_getElem? called, mem⟩

/-- What is called in a frame is called in the program. -/
lemma Program.Unfolds.calls {program : Program} {kind : FrameKind} {body : List Statement}
    (unfolds : program.Unfolds kind body) : ∀ index ∈ bodyCalls body, index ∈ program.calls := by
  intro index mem
  induction unfolds with
  | main => exact List.mem_append_left _ mem
  | opened _ is opens ih =>
    obtain here | procedure := opens.calls mem
    · exact ih (mem_bodyCalls.2 ⟨_, is, here⟩)
    · exact List.mem_append_right _ (List.mem_flatMap.2 procedure)
  | repeated _ _ ih => exact ih mem

/-- A program that calls procedures that exist never comes to call another one. -/
theorem Machine.Ticked.known {σ ε : Type} {host : Host σ ε} {program : Program} {m : Machine}
    {s s' : σ} {limit : Nat} (exist : ∀ index ∈ program.calls, index < program.procedures.length)
    (ticked : Ticked host (load program limit) s m s') (index : Nat) :
    (m.tick host s').report ≠ .error (.unknownProcedure index) := by
  intro reports
  have ticks := Machine.ticks host m s'
  rw [reports] at ticks
  generalize (m.tick host s').machine = left at ticks
  have of := ticked.of
  -- of all that a tick can do, only a call reports this
  cases ticks with
  | unknown _ frames next missing =>
    have here := of.frames _ (frames ▸ List.mem_cons_self)
    have called : index ∈ (Statement.call index).calls := List.mem_singleton_self index
    have mem := here.calls index (mem_bodyCalls.2 ⟨_, List.mem_of_getElem? next, called⟩)
    rw [of.procedures, List.getElem?_eq_none_iff] at missing
    exact absurd (exist index mem) (Nat.not_lt.2 missing)

end BlockPuzzle
