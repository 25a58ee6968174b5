import BlockPuzzle.Machine.Basic

/-!
# Rehearsals

A rehearsal runs a program without a board: its host answers from a script of its own, can be told
to fail, and notes every call. The machine goes on after failures, so that a rehearsal shows what each
tick does.
-/

namespace BlockPuzzle

/-- What the host of a rehearsal does. Failing calls are counted from 1; a command can be chosen at
which every call fails. -/
structure Rehearsal where
  answers : List Bool
  fallback : Bool
  doneAfter : Option Nat
  haltOn : Option Command
  failSense : Option Nat
  failNotDone : Option Nat

namespace Rehearsal

/-- Why a call of the host fails. -/
inductive Refusal where
  | halted (block : BlockId)
  | senseFailed (block : BlockId)
  | notDoneFailed
  deriving DecidableEq

/-- The words for a failed call. -/
def Refusal.message : Refusal → String
  | halted block => "halted by " ++ block
  | senseFailed block => "sense failed at " ++ block
  | notDoneFailed => "not-done failed"

/-- The calls made so far, newest first, and the answers still to give. -/
structure Notes where
  commands : List (Command × BlockId)
  senses : List (Side × BlockId)
  notDoneCalls : Nat
  answers : List Bool

/-- Nothing has been called yet. -/
def notes (rehearsal : Rehearsal) : Notes :=
  ⟨[], [], 0, rehearsal.answers⟩

/-- The host of a rehearsal. -/
def host (rehearsal : Rehearsal) : Host Notes Refusal where
  command command block notes :=
    let notes := { notes with commands := (command, block) :: notes.commands }
    if rehearsal.haltOn = some command then .error (.halted block) notes else .ok () notes
  sense side block notes :=
    let notes := { notes with senses := (side, block) :: notes.senses }
    if rehearsal.failSense.any (· == notes.senses.length) then .error (.senseFailed block) notes
    else
      match notes.answers with
      | [] => .ok rehearsal.fallback notes
      | answer :: answers => .ok answer { notes with answers }
  notDone notes :=
    let notes := { notes with notDoneCalls := notes.notDoneCalls + 1 }
    if rehearsal.failNotDone = some notes.notDoneCalls then .error .notDoneFailed notes
    else
      match rehearsal.doneAfter with
      | some count => .ok (decide (notes.commands.length < count)) notes
      | none => .ok true notes

/-- What one tick of a rehearsal showed. -/
structure Sighting where
  hadWork : Bool
  report : Except (Fault Refusal) Progress
  depth : Nat

/-- Ticks a machine until `ticks` ticks were made or it has reported its completion `completions`
times. The sightings are kept newest first. -/
def perform (rehearsal : Rehearsal) (ticks completions : Nat) (machine : Machine) (notes : Notes)
    (seen : List Sighting) : Machine × Notes × List Sighting :=
  match ticks, completions with
  | 0, _ => (machine, notes, seen)
  | _, 0 => (machine, notes, seen)
  | ticks + 1, completions + 1 =>
    let tick := machine.tick rehearsal.host notes
    let seen := ⟨machine.hasWork, tick.report, tick.machine.depth⟩ :: seen
    match tick.report with
    | .ok .completed => rehearsal.perform ticks completions tick.machine tick.host seen
    | _ => rehearsal.perform ticks (completions + 1) tick.machine tick.host seen

end Rehearsal

end BlockPuzzle
