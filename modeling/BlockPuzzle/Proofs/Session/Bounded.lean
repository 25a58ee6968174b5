import BlockPuzzle.Proofs.Machine.Bounded
import BlockPuzzle.Proofs.Session.Reports

/-!
# Scripts that are bound to end

A script whose loops count their passes, and whose procedures do not call themselves, comes to an
end. If a session allows as many ticks as its program extends to, and as many frames as its bodies
nest, a run of it is neither cut off nor a fault, on any level: `Session.run_bounded`.
-/

namespace BlockPuzzle

/-- A run that allows the ticks in which its machine ends is not cut off, and is no fault. -/
lemma Walk.Outcome.of_endsWithin {σ : Type} {host : Host σ Interrupt} {budget bound ticks : Nat}
    {m : Machine} {s s' : σ} {ending : Ending} (ends : m.EndsWithin host s bound)
    (le : bound ≤ budget) (outcome : Walk.Outcome host budget m s ending ticks s') :
    ending ≠ .exhausted ∧ ∀ detail, ending ≠ .fault detail := by
  obtain ⟨n, within, ends⟩ := ends
  cases outcome with
  | completed => exact ⟨nofun, nofun⟩
  | exhausted run work =>
    obtain ⟨t, halts⟩ | ⟨e, t, fails⟩ := ends
    · obtain ⟨m'', run', idle⟩ := halts
      obtain rfl : budget = n :=
        Nat.le_antisymm (run'.le_of_final (.of_idle idle) run) (within.trans le)
      obtain ⟨rfl, -⟩ := run.det run'
      rw [idle] at work
      cases work
    · exact absurd (fails.runs_lt run) (Nat.not_lt.2 (within.trans le))
  | failed fails =>
    obtain ⟨t, halts⟩ | ⟨e, t, fails'⟩ := ends
    · exact absurd fails halts.not_failsAt
    · obtain ⟨-, rfl, -⟩ := fails.unique fails'
      cases e with
      | finish => exact ⟨nofun, nofun⟩
      | crash => exact ⟨nofun, nofun⟩

/-- Only what is cut off, or is a fault, gets a verdict that says so. -/
lemma Ending.classify_ne {ending : Ending} (uncut : ending ≠ .exhausted)
    (sound : ∀ detail, ending ≠ .fault detail) (position finish : Point) :
    ending.classify position finish ≠ .timeout ∧ ending.classify position finish ≠ .error := by
  cases ending with
  | finished =>
    by_cases there : position = finish
    · simp [classify, there]
    · simp [classify, there]
  | completed =>
    by_cases there : position = finish
    · simp [classify, there]
    · simp [classify, there]
  | crashed => simp [classify]
  | exhausted => exact absurd rfl uncut
  | fault detail => exact absurd rfl (sound detail)

namespace Session

open Machine (EndsWithin Ticked load)

/-- A program that counts its passes, and whose procedures do not call themselves, ends by itself or
with its host: on any host and with room for its bodies, in no more ticks than it extends to and
never with too many frames open. So the run of a script that compiles to it is no timeout and no
error, under limits that allow for that. -/
theorem run_bounded {program : Program} (bounded : program.Bounded) :
    (∀ (gauge : Gauge) (index : Nat) (procedure : Procedure),
      program.procedures[index]? = some procedure →
      program.procedureExtent gauge index =
        bodyExtent gauge (program.procedureExtent gauge) procedure.body) ∧
    (∀ {σ ε : Type} (host : Host σ ε) (limit : Nat) (s : σ), program.extent .levels ≤ limit →
      EndsWithin host (load program limit) s (program.extent .ticks) ∧
      ∀ m s', Ticked host (load program limit) s m s' →
        ∀ depth, (m.tick host s').report ≠ .error (.tooDeep depth)) ∧
    ∀ (session : Session) (script : String), Program.compile script = .ok program →
      program.extent .ticks ≤ session.settings.tickBudget.toNat →
      program.extent .levels ≤ session.settings.maxCallDepth.toNat →
      ∃ report, (session.run script).1 = .ok report ∧ report.verdict ≠ .timeout ∧
        report.verdict ≠ .error := by
  refine ⟨fun gauge _ _ => bounded.recursion gauge, fun host limit s enough => ?_, ?_⟩
  · exact ⟨Machine.load_ends bounded enough host s, fun _ _ ticked =>
      ticked.not_tooDeep bounded enough⟩
  · intro session script compiles ticks levels
    obtain ⟨report, walk, ran, -, fits, outcome⟩ := session.run_of_compile compiles
    obtain ⟨uncut, sound⟩ :=
      outcome.of_endsWithin (Machine.load_ends bounded levels _ _) ticks
    refine ⟨report, ran, ?_⟩
    rw [fits]
    exact Ending.classify_ne uncut sound _ _

/-- The program of a script with a loop in a procedure, and a branch. -/
def spinning : Program where
  name := "anonymous"
  main := [.call 0, .branch [.mk (.path .ahead "b") [.command .moveForward "c"]] none]
  procedures := [⟨"spin", [.loop 2 [.command .turnLeft "a"]]⟩]

/-- With the default limits the corridor leaves enough ticks and frames for it. -/
theorem run_bounded_corridor :
    spinning.Bounded ∧ spinning.extent .ticks = 11 ∧ spinning.extent .levels = 3 ∧
      ∃ report, (corridor.run
          "(define spin (repeat 2 (turn-left a))) (call spin) (if (path-ahead b) (move-forward c))").1 =
          .ok report ∧
        report.verdict ≠ .timeout ∧ report.verdict ≠ .error := by
  have silent : ∀ caller callee, ¬ spinning.Invokes caller callee := by
    rintro caller callee ⟨procedure, at_index, mem⟩
    obtain rfl := List.mem_singleton.1 (List.mem_of_getElem? at_index)
    cases mem
  have bounded : spinning.Bounded := by
    refine ⟨by decide, by decide, by decide, fun index cycle => ?_⟩
    cases cycle with
    | single invokes => exact silent _ _ invokes
    | tail _ invokes => exact silent _ _ invokes
  have reads : Form.readAll
      "(define spin (repeat 2 (turn-left a))) (call spin) (if (path-ahead b) (move-forward c))" =
      .ok [.list [.symbol "define", .symbol "spin",
          .list [.symbol "repeat", .integer 2, .list [.symbol "turn-left", .symbol "a"]]],
        .list [.symbol "call", .symbol "spin"],
        .list [.symbol "if", .list [.symbol "path-ahead", .symbol "b"],
          .list [.symbol "move-forward", .symbol "c"]]] := by
    with_unfolding_all rfl
  obtain ⟨-, -, runs⟩ := run_bounded bounded
  have compiles : Program.compile _ = .ok spinning := (Program.compile_iff reads).2 rfl
  exact ⟨bounded, by decide, by decide, runs corridor _ compiles (by decide) (by decide)⟩

end Session

end BlockPuzzle
