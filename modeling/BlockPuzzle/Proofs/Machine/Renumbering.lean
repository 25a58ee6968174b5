import BlockPuzzle.Machine.Basic
import BlockPuzzle.Proofs.Program.Renumbering

/-!
# Machines with renumbered procedures

A machine whose procedures have changed places, and whose calls have followed them, does the same as
before, tick by tick: `Machine.tick_renumbered`.
-/

namespace BlockPuzzle

open Procedures (Placed)

variable {σ ε : Type} (place : Nat → Nat) (procedures : List Procedure)

/-- The frame with its calls at other places. -/
def Frame.renumbered (frame : Frame) : Frame :=
  { frame with body := bodyRenumbered place frame.body }

/-- The machine with other procedures, and with its calls at other places. -/
def Machine.renumbered (m : Machine) : Machine :=
  { m with procedures, frames := m.frames.map (Frame.renumbered place) }

/-- The tick of the machine with other procedures. -/
def Tick.renumbered (tick : Tick σ ε) : Tick σ ε :=
  { tick with machine := tick.machine.renumbered place procedures }

/-- A renumbered frame comes to the renumbered statement. -/
lemma Frame.next_renumbered (frame : Frame) :
    (frame.renumbered place).body[(frame.renumbered place).index]? =
      (frame.body[frame.index]?).map (Statement.renumbered place) := by
  unfold Frame.renumbered
  rw [bodyRenumbered_eq_map, List.getElem?_map]

/-- The same arm is chosen. -/
lemma chooseArm_renumbered (host : Host σ ε) (otherwise : Option (List Statement))
    (arms : List Arm) (s : σ) :
    chooseArm host (otherwiseRenumbered place otherwise) (armsRenumbered place arms) s =
      match chooseArm host otherwise arms s with
      | .ok chosen s => .ok (chosen.map (bodyRenumbered place)) s
      | .error e s => .error e s := by
  induction arms generalizing s with
  | nil => exact congrArg (EStateM.Result.ok · s) (otherwiseRenumbered_eq_map place otherwise)
  | cons arm arms ih =>
    simp only [armsRenumbered, chooseArm, bind, EStateM.bind, Arm.condition_renumbered,
      Arm.body_renumbered]
    cases arm.condition.eval host s with
    | error e s => rfl
    | ok value s =>
      cases value with
      | true => rfl
      | false => exact ih s

namespace Machine

variable (m : Machine)

/-- Renumbering leaves the limit on open frames. -/
lemma limit_renumbered : (m.renumbered place procedures).limit = m.limit := by
  simp [Machine.limit, depth, renumbered]

/-- Nor does it change whether there is work to do. -/
lemma hasWork_renumbered : (m.renumbered place procedures).hasWork = m.hasWork := by
  simp [hasWork, renumbered]

/-- A renumbered program is loaded as a renumbered machine. -/
lemma load_renumbered {program program' : Program} (renumbers : program.Renumbers place program')
    (limit : Nat) :
    load program' limit = (load program limit).renumbered place program'.procedures := by
  unfold load renumbered Frame.renumbered
  rw [renumbers.main]
  rfl

/-- A body is entered alike. -/
lemma enter_renumbered (kind : FrameKind) (body : List Statement) (s : σ) :
    (m.renumbered place procedures).enter kind (bodyRenumbered place body) s =
      (m.enter kind body s : Tick σ ε).renumbered place procedures := by
  have limit := limit_renumbered place procedures m
  have room : (m.renumbered place procedures).room = m.room := rfl
  unfold enter
  rw [room, limit]
  cases m.room with
  | zero => rfl
  | succ room => rfl

variable {m} {procedures} {place}

/-- A statement is run alike. -/
lemma run_renumbered (placed : Placed place m.procedures procedures) (host : Host σ ε)
    (statement : Statement) (s : σ) :
    (m.renumbered place procedures).run host (statement.renumbered place) s =
      (m.run host statement s).renumbered place procedures := by
  cases statement with
  | command order block =>
    simp only [Statement.renumbered, run]
    cases host.command order block s with
    | ok _ s => rfl
    | error e s => rfl
  | loop times body =>
    simp only [Statement.renumbered, run]
    by_cases zero : times = 0
    · rw [if_pos zero, if_pos zero]
      rfl
    · rw [if_neg zero, if_neg zero]
      exact enter_renumbered place procedures m _ body s
  | whileHolds condition body =>
    simp only [Statement.renumbered, run]
    cases condition.eval host s with
    | ok value s =>
      cases value with
      | true => exact enter_renumbered place procedures m _ body s
      | false => rfl
    | error e s => rfl
  | forever body => exact enter_renumbered place procedures m _ body s
  | branch arms otherwise =>
    simp only [Statement.renumbered, run, chooseArm_renumbered]
    cases chooseArm host otherwise arms s with
    | ok chosen s =>
      cases chosen with
      | some body => exact enter_renumbered place procedures m _ body s
      | none => rfl
    | error e s => rfl
  | call index =>
    have known : (m.renumbered place procedures).procedures = procedures := rfl
    simp only [Statement.renumbered, run, known]
    cases called : m.procedures[index]? with
    | some procedure =>
      rw [placed.found called]
      exact enter_renumbered place procedures m _ procedure.body s
    | none =>
      -- a call that leads nowhere leads nowhere afterwards
      obtain ⟨same, none⟩ := placed.missing called
      rw [same, none]
      rfl

/-- A pass is ended alike. -/
lemma endPass_renumbered (host : Host σ ε) (frame : Frame) (outer : List Frame) (s : σ) :
    (m.renumbered place procedures).endPass host (frame.renumbered place)
        (outer.map (Frame.renumbered place)) s =
      (m.endPass host frame outer s).renumbered place procedures := by
  obtain ⟨kind, body, index⟩ := frame
  cases kind with
  | block => rfl
  | procedure => rfl
  | forever => rfl
  | loop remaining =>
    simp only [Frame.renumbered, endPass]
    by_cases last : remaining - 1 = 0
    · rw [if_pos last, if_pos last]
      rfl
    · rw [if_neg last, if_neg last]
      rfl
  | whileHolds condition =>
    simp only [Frame.renumbered, endPass]
    cases condition.eval host s with
    | ok value s =>
      cases value with
      | true => rfl
      | false => rfl
    | error e s => rfl

/-- A tick does the same. -/
theorem tick_renumbered (placed : Placed place m.procedures procedures) (host : Host σ ε) (s : σ) :
    (m.renumbered place procedures).tick host s =
      (m.tick host s).renumbered place procedures := by
  obtain ⟨known, room, frames, completed⟩ := m
  cases completed with
  | true => rfl
  | false =>
    cases frames with
    | nil => rfl
    | cons frame outer =>
      have run := run_renumbered
        (m := ⟨known, room, { frame with index := frame.index + 1 } :: outer, false⟩) placed host
      have endPass := @endPass_renumbered σ ε place procedures ⟨known, room, frame :: outer, false⟩
        host frame outer s
      simp only [tick, renumbered, List.map_cons, Frame.next_renumbered]
      cases frame.body[frame.index]? with
      | some statement => exact run statement s
      | none => exact endPass

end Machine

end BlockPuzzle
