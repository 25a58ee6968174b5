import Mathlib.Algebra.Group.Int.Defs
import Mathlib.Algebra.Group.Nat.Defs
import BlockPuzzle.Proofs.Program.Blocks
import BlockPuzzle.Proofs.Program.Calls
import BlockPuzzle.Proofs.Session.History
import BlockPuzzle.Proofs.Session.Run

/-!
# Blocks that are left

A session tells how many blocks a script leaves unused: the limit of the level less the distinct
blocks that occur in the program, and this is negative just if the script uses too many. Limit, number
and difference are signed words, though, so that `2 ^ 63` blocks or more that are left count as a
negative number (`Session.remainingCapacity_corridor`). `Session.remainingCapacity_counts` says what
comes of either.
-/

namespace BlockPuzzle

/-- The difference of two words is the true one, up to a multiple of `2 ^ 64` that makes it a signed
word. -/
lemma Level.blocksLeft_eq {level : Level} {most : UInt64} (limited : level.maxBlocks = some most)
    (used : Nat) : level.blocksLeft used = some ((most.toNat - used : Int).bmod (2 ^ 64)) := by
  have signed : most.toInt64.toInt = (most.toNat : Int).bmod (2 ^ 64) := by
    rw [← Int64.toInt_toBitVec, UInt64.toBitVec_toInt64, BitVec.toInt_eq_toNat_bmod,
      UInt64.toNat_toBitVec]
  have signed' : (Int64.ofNat used).toInt = (used : Int).bmod (2 ^ 64) := Int64.toInt_ofNat'
  unfold blocksLeft
  rw [limited, Option.map_some, Int64.toInt_sub, signed, signed', Int.bmod_sub_bmod,
    Int.sub_bmod_bmod]

namespace Session

variable {session : Session} {script : String} {program : Program} {most : UInt64}

/-- Where blocks are limited, the distinct blocks of the program are taken from the limit. -/
lemma remainingCapacity_of_compile (limited : session.level.maxBlocks = some most)
    (compiles : Program.compile script = .ok program) :
    session.remainingCapacity script =
      .ok (some ((most.toNat - program.blockIds.length : Int).bmod (2 ^ 64))) := by
  unfold remainingCapacity
  rw [compiles, ← Level.blocksLeft_eq limited]
  rfl

/-- Only the level matters for it. -/
lemma remainingCapacity_congr {other : Session} (level : other.level = session.level)
    (script : String) : other.remainingCapacity script = session.remainingCapacity script := by
  unfold remainingCapacity
  rw [level]

/-- What is left is the limit less the number of blocks that occur in the program, wherever and
however often, if this fits into a signed word; then it is negative just if these are more than the
limit. If so many are left that they do not fit, the answer is smaller by `2 ^ 64` and negative, however
few blocks the script uses. Nothing that is done with a session makes a difference. -/
theorem remainingCapacity_counts (limited : session.level.maxBlocks = some most)
    (compiles : Program.compile script = .ok program) :
    ∃ (ids : Finset BlockId) (left : Int), (∀ block, block ∈ ids ↔ program.Names block) ∧
      session.remainingCapacity script = .ok (some left) ∧
      (-2 ^ 63 ≤ (most.toNat : Int) - ids.card → (most.toNat : Int) - ids.card < 2 ^ 63 →
        left = most.toNat - ids.card ∧ (left < 0 ↔ most.toNat < ids.card)) ∧
      (2 ^ 63 ≤ (most.toNat : Int) - ids.card →
        left = most.toNat - ids.card - 2 ^ 64 ∧ left < 0) ∧
      (∀ history, (session.after history).remainingCapacity script = .ok (some left)) ∧
      ∀ other : Session, other.level = session.level →
        other.remainingCapacity script = .ok (some left) := by
  obtain ⟨ids, named, count⟩ := program.exists_ids
  have small := most.toNat_lt
  have counted := remainingCapacity_of_compile limited compiles
  refine ⟨ids, _, named, counted, fun low high => ?_, fun high => ?_, fun history => ?_,
    fun other level => ?_⟩
  · rw [count] at low high ⊢
    rw [Int.bmod_eq_of_le (by omega) (by omega)]
    exact ⟨rfl, by omega⟩
  · rw [count] at high ⊢
    -- a whole turn of the words brings the difference into their range
    rw [← Int.sub_bmod_right, Int.bmod_eq_of_le (by omega) (by omega)]
    exact ⟨rfl, by omega⟩
  · exact (remainingCapacity_congr (session.after_spares history).2 script).trans counted
  · exact (remainingCapacity_congr level script).trans counted

/-- A loop over one block leaves three of four unused. -/
theorem remainingCapacity_counts_corridor :
    let session : Session := { corridor with level := corridor.level.withMaxBlocks 4 }
    ∃ program, Program.compile "(repeat 4 (move-forward m))" = .ok program ∧
      session.level.maxBlocks = some 4 ∧
      session.remainingCapacity "(repeat 4 (move-forward m))" = .ok (some 3) := by
  intro session
  have reads : Form.readAll "(repeat 4 (move-forward m))" =
      .ok [.list [.symbol "repeat", .integer 4, .list [.symbol "move-forward", .symbol "m"]]] := by
    with_unfolding_all rfl
  have compiles : Program.compile "(repeat 4 (move-forward m))" =
      .ok ⟨"anonymous", [.loop 4 [.command .moveForward "m"]], []⟩ :=
    (Program.compile_iff reads).2 rfl
  have limited : session.level.maxBlocks = some 4 := rfl
  obtain ⟨ids, left, named, counted, fits, -⟩ := remainingCapacity_counts limited compiles
  have only : ids = {"m"} := by
    ext block
    rw [named, ← Program.mem_blockIds_iff, Finset.mem_singleton, ← List.mem_singleton]
    have listed : Program.blockIds ⟨"anonymous", [.loop 4 [.command .moveForward "m"]], []⟩ =
        ["m"] := by
      cbv
    rw [listed]
  subst only
  obtain ⟨rfl, -⟩ := fits (by decide) (by decide)
  exact ⟨_, compiles, limited, counted⟩

/-- The corridor with the highest limit that a level can have. -/
def boundlessCorridor : Session :=
  { corridor with level := corridor.level.withMaxBlocks 18446744073709551615 }

/-- Under that limit a script with a single block seems to use two too many. -/
theorem remainingCapacity_corridor :
    boundlessCorridor.level.maxBlocks = some 18446744073709551615 ∧
      ∃ program, Program.compile "(finish a)" = .ok program ∧ program.blockIds = ["a"] ∧
        program.blockIds.length ≤ (18446744073709551615 : UInt64).toNat ∧
        boundlessCorridor.remainingCapacity "(finish a)" = .ok (some (-2)) := by
  have reads : Form.readAll "(finish a)" = .ok [.list [.symbol "finish", .symbol "a"]] := by
    with_unfolding_all rfl
  have compiles : Program.compile "(finish a)" =
      .ok ⟨"anonymous", [.command .finish "a"], []⟩ :=
    (Program.compile_iff reads).2 rfl
  have limited : boundlessCorridor.level.maxBlocks = some 18446744073709551615 := rfl
  have listed : Program.blockIds ⟨"anonymous", [.command .finish "a"], []⟩ = ["a"] := by
    cbv
  have counted := remainingCapacity_of_compile limited compiles
  rw [listed] at counted
  refine ⟨limited, _, compiles, listed, ?_, counted.trans (by decide)⟩
  rw [listed]
  decide

end Session

end BlockPuzzle
