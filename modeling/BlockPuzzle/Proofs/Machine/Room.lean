import BlockPuzzle.Machine.Basic
import Mathlib.Tactic.Lemma

/-!
# Machines with more room

A machine that may open more frames does the same as one that may open fewer, tick by tick, until that
one finds no room for a frame: `Machine.tick_roomier`. Also then both leave their host in the same
state, since a frame is the last thing that a tick opens.
-/

namespace BlockPuzzle

variable {σ ε : Type}

namespace Machine

/-- The machine, but it may open some more frames. -/
def roomier (m : Machine) (extra : Nat) : Machine :=
  { m with room := m.room + extra }

/-- More room does not make work. -/
lemma hasWork_roomier (m : Machine) (extra : Nat) : (m.roomier extra).hasWork = m.hasWork := rfl

/-- A program that is loaded with a higher limit has more room. -/
lemma load_roomier (program : Program) {limit limit' : Nat} (le : limit ≤ limit') :
    ∃ extra, load program limit' = (load program limit).roomier extra := by
  refine ⟨limit' - 1 - (limit - 1), ?_⟩
  have room : limit' - 1 = limit - 1 + (limit' - 1 - (limit - 1)) := by omega
  simp only [load, roomier]
  rw [← room]

/-- What a tick does with more room: the same, unless room was what it had not enough of. -/
inductive Roomier (extra : Nat) : Tick σ ε → Tick σ ε → Prop where
  | same {report m s} :
    Roomier extra ⟨report, m, s⟩ ⟨report, m.roomier extra, s⟩
  | full {limit m s tick} :
    tick.host = s →
    Roomier extra ⟨.error (.tooDeep limit), m, s⟩ tick

variable (extra : Nat) (m : Machine)

/-- A body is entered alike, unless there was no room for it. -/
lemma enter_roomier (kind : FrameKind) (body : List Statement) (s : σ) :
    Roomier (ε := ε) extra (m.enter kind body s) ((m.roomier extra).enter kind body s) := by
  obtain ⟨procedures, room, frames, completed⟩ := m
  cases room with
  | zero =>
    apply Roomier.full
    unfold enter
    cases (Machine.roomier ⟨procedures, 0, frames, completed⟩ extra).room with
    | zero => rfl
    | succ room => rfl
  | succ room =>
    have more : room + 1 + extra = room + extra + 1 := Nat.add_right_comm room 1 extra
    simp only [enter, roomier, more]
    exact .same

variable (host : Host σ ε)

/-- A statement is run alike. -/
lemma run_roomier (statement : Statement) (s : σ) :
    Roomier extra (m.run host statement s) ((m.roomier extra).run host statement s) := by
  cases statement with
  | command order block =>
    simp only [run]
    cases host.command order block s with
    | ok _ s => exact .same
    | error e s => exact .same
  | loop times body =>
    simp only [run]
    by_cases zero : times = 0
    · rw [if_pos zero, if_pos zero]
      exact .same
    · rw [if_neg zero, if_neg zero]
      exact enter_roomier extra m _ body s
  | whileHolds condition body =>
    simp only [run]
    cases condition.eval host s with
    | ok value s =>
      cases value with
      | true => exact enter_roomier extra m _ body s
      | false => exact .same
    | error e s => exact .same
  | forever body => exact enter_roomier extra m _ body s
  | branch arms otherwise =>
    simp only [run]
    cases chooseArm host otherwise arms s with
    | ok chosen s =>
      cases chosen with
      | some body => exact enter_roomier extra m _ body s
      | none => exact .same
    | error e s => exact .same
  | call index =>
    have procedures : (m.roomier extra).procedures = m.procedures := rfl
    simp only [run, procedures]
    cases m.procedures[index]? with
    | some procedure => exact enter_roomier extra m _ procedure.body s
    | none => exact .same

/-- A frame that is closed gives its room back, however much there is. -/
lemma leave_roomier (outer : List Frame) (s : σ) :
    Roomier (ε := ε) extra (m.leave outer s) ((m.roomier extra).leave outer s) := by
  have more : m.room + extra + 1 = m.room + 1 + extra := Nat.add_right_comm m.room extra 1
  simp only [leave, roomier, more]
  exact .same

/-- A pass is ended alike. -/
lemma endPass_roomier (frame : Frame) (outer : List Frame) (s : σ) :
    Roomier extra (m.endPass host frame outer s) ((m.roomier extra).endPass host frame outer s) := by
  obtain ⟨kind, body, index⟩ := frame
  cases kind with
  | block => exact leave_roomier extra m outer s
  | procedure => exact leave_roomier extra m outer s
  | forever => exact .same
  | loop remaining =>
    simp only [endPass]
    by_cases last : remaining - 1 = 0
    · rw [if_pos last, if_pos last]
      exact leave_roomier extra m outer s
    · rw [if_neg last, if_neg last]
      exact .same
  | whileHolds condition =>
    simp only [endPass]
    cases condition.eval host s with
    | ok value s =>
      cases value with
      | true => exact .same
      | false => exact leave_roomier extra m outer s
    | error e s => exact .same

/-- With more room a tick does the same, unless it had not enough. -/
theorem tick_roomier (s : σ) :
    Roomier extra (m.tick host s) ((m.roomier extra).tick host s) := by
  obtain ⟨procedures, room, frames, completed⟩ := m
  cases completed with
  | true => exact .same
  | false =>
    cases frames with
    | nil => exact .same
    | cons frame outer =>
      simp only [tick, roomier]
      cases frame.body[frame.index]? with
      | some statement => exact run_roomier extra _ host statement s
      | none => exact endPass_roomier extra _ host frame outer s

end Machine

end BlockPuzzle
