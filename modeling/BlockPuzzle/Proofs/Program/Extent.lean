import Mathlib.Data.List.Perm.Subperm
import Mathlib.Data.List.Range
import Mathlib.Logic.Relation
import BlockPuzzle.Proofs.Program.Printing

/-!
# How far programs extend

How long a program can run and how deep its bodies nest is read off its statements, if its loops
count their passes. Both are measured alike, by a `Gauge`; the extent of a call is that of the
procedure (`Program.procedureExtent_eq`). This is a recursion on the calls, and it comes to an end
because no procedure calls itself, not even by way of others.
-/

namespace BlockPuzzle

/-! ## Gauges -/

/-- How the extent of statements is measured: what a statement is for itself, what statements in
order come to, and what a number of passes of a loop comes to. -/
structure Gauge where
  statement : Nat
  inOrder : Nat → Nat → Nat
  passes : Nat → Nat → Nat

/-- The ticks that statements take. Each of them is one for itself, and they add up. -/
def Gauge.ticks : Gauge where
  statement := 1
  inOrder := (· + ·)
  passes := (· * ·)

/-- The levels of bodies that statements open. Those in order share them, and so do the passes of a
loop. -/
def Gauge.levels : Gauge where
  statement := 0
  inOrder := max
  passes _ body := body

section

variable (gauge : Gauge) (called : Nat → Nat)

mutual

/-- The extent of a statement, given that of the procedures. Every body adds one for itself: the
tick at the end of a pass, or a level. Of the bodies of a branch the longest one counts, and of a
loop that does not count its passes a single one. -/
def Statement.extent : Statement → Nat
  | .command _ _ => gauge.statement
  | .loop times body => gauge.statement + gauge.passes times.toNat (bodyExtent body + 1)
  | .whileHolds _ body => gauge.statement + (bodyExtent body + 1)
  | .forever body => gauge.statement + (bodyExtent body + 1)
  | .branch arms otherwise => gauge.statement + max (armsExtent arms) (otherwiseExtent otherwise)
  | .call index => gauge.statement + (called index + 1)

/-- The extent of statements in order. -/
def bodyExtent : List Statement → Nat
  | [] => 0
  | s :: ss => gauge.inOrder s.extent (bodyExtent ss)

def Arm.extent : Arm → Nat
  | .mk _ body => bodyExtent body + 1

def armsExtent : List Arm → Nat
  | [] => 0
  | a :: as => max a.extent (armsExtent as)

def otherwiseExtent : Option (List Statement) → Nat
  | none => 0
  | some body => bodyExtent body + 1

end

end

mutual

/-- Whether all loops in a statement count their passes. -/
def Statement.counted : Statement → Bool
  | .command _ _ => true
  | .loop _ body => bodyCounted body
  | .whileHolds _ _ => false
  | .forever _ => false
  | .branch arms otherwise => armsCounted arms && otherwiseCounted otherwise
  | .call _ => true

def bodyCounted : List Statement → Bool
  | [] => true
  | s :: ss => s.counted && bodyCounted ss

def Arm.counted : Arm → Bool
  | .mk _ body => bodyCounted body

def armsCounted : List Arm → Bool
  | [] => true
  | a :: as => a.counted && armsCounted as

def otherwiseCounted : Option (List Statement) → Bool
  | none => true
  | some body => bodyCounted body

end

/-! ## The extent of programs -/

namespace Program

/-- The extent of a procedure whose calls nest so many levels deep; what is called deeper down is
left out. -/
def calledExtent (gauge : Gauge) (program : Program) : Nat → Nat → Nat
  | 0, _ => 0
  | levels + 1, index =>
    match program.procedures[index]? with
    | some procedure => bodyExtent gauge (program.calledExtent gauge levels) procedure.body
    | none => 0

/-- The extent of a procedure. Calls nest no deeper than there are procedures. -/
def procedureExtent (gauge : Gauge) (program : Program) : Nat → Nat :=
  program.calledExtent gauge program.procedures.length

/-- The extent of a program; the main body adds one for itself like any other. -/
def extent (gauge : Gauge) (program : Program) : Nat :=
  bodyExtent gauge (program.procedureExtent gauge) program.main + 1

/-- One procedure calls another one. -/
def Invokes (program : Program) (caller callee : Nat) : Prop :=
  ∃ procedure, program.procedures[caller]? = some procedure ∧ callee ∈ bodyCalls procedure.body

/-- A program that is bound to end: its loops count their passes, it calls procedures that exist,
and none of these calls itself, be it by way of others. -/
structure Bounded (program : Program) : Prop where
  main : bodyCounted program.main = true
  procedures : ∀ procedure ∈ program.procedures, bodyCounted procedure.body = true
  known : ∀ index ∈ program.calls, index < program.procedures.length
  acyclic : ∀ index, ¬ Relation.TransGen program.Invokes index index

end Program

/-! ## Calls -/

section

variable {gauge : Gauge} {called called' : Nat → Nat}

mutual

/-- The extent of a statement depends on what it calls only. -/
theorem Statement.extent_congr : ∀ statement : Statement,
    (∀ index ∈ statement.calls, called index = called' index) →
    statement.extent gauge called = statement.extent gauge called'
  | .command .., _ => rfl
  | .loop times body, same => by
    simp only [Statement.extent, bodyExtent_congr body same]
  | .whileHolds _ body, same => by
    simp only [Statement.extent, bodyExtent_congr body same]
  | .forever body, same => by
    simp only [Statement.extent, bodyExtent_congr body same]
  | .branch arms otherwise, same => by
    obtain ⟨first, second⟩ := List.forall_mem_append.1 same
    simp only [Statement.extent, armsExtent_congr arms first,
      otherwiseExtent_congr otherwise second]
  | .call index, same => by
    simp only [Statement.extent, same index (List.mem_singleton_self index)]

/-- The extent of a body depends on nothing but that of the procedures it calls. -/
theorem bodyExtent_congr : ∀ body : List Statement,
    (∀ index ∈ bodyCalls body, called index = called' index) →
    bodyExtent gauge called body = bodyExtent gauge called' body
  | [], _ => rfl
  | s :: ss, same => by
    obtain ⟨first, others⟩ := List.forall_mem_append.1 same
    simp only [bodyExtent, s.extent_congr first, bodyExtent_congr ss others]

/-- So does that of an arm. -/
theorem Arm.extent_congr : ∀ arm : Arm,
    (∀ index ∈ arm.calls, called index = called' index) →
    arm.extent gauge called = arm.extent gauge called'
  | .mk _ body, same => congrArg (· + 1) (bodyExtent_congr body same)

/-- So does that of a chain of arms. -/
theorem armsExtent_congr : ∀ arms : List Arm,
    (∀ index ∈ armsCalls arms, called index = called' index) →
    armsExtent gauge called arms = armsExtent gauge called' arms
  | [], _ => rfl
  | a :: as, same => by
    obtain ⟨first, others⟩ := List.forall_mem_append.1 same
    simp only [armsExtent, a.extent_congr first, armsExtent_congr as others]

/-- So does that of the last resort. -/
theorem otherwiseExtent_congr : ∀ otherwise : Option (List Statement),
    (∀ index ∈ otherwiseCalls otherwise, called index = called' index) →
    otherwiseExtent gauge called otherwise = otherwiseExtent gauge called' otherwise
  | none, _ => rfl
  | some body, same => congrArg (· + 1) (bodyExtent_congr body same)

end

end

namespace Program

variable {gauge : Gauge} {program : Program} {index : Nat} {procedure : Procedure}

/-- The extent of a call is that of the body, with one level less to go. -/
lemma calledExtent_of_some (at_index : program.procedures[index]? = some procedure) (levels : Nat) :
    program.calledExtent gauge (levels + 1) index =
      bodyExtent gauge (program.calledExtent gauge levels) procedure.body := by
  rw [calledExtent, at_index]

/-- A call of a procedure that is missing has no extent. -/
lemma calledExtent_of_none (missing : program.procedures[index]? = none) (levels : Nat) :
    program.calledExtent gauge levels index = 0 := by
  cases levels with
  | zero => rfl
  | succ levels => rw [calledExtent, missing]

/-- Procedures that lead to another one by their calls, each of them once. -/
structure Path (program : Program) (path : List Nat) (index : Nat) : Prop where
  distinct : path.Nodup
  known : ∀ earlier ∈ path, earlier < program.procedures.length
  leads : ∀ earlier ∈ path, Relation.TransGen program.Invokes earlier index

section

variable {path : List Nat} (acyclic : ∀ index, ¬ Relation.TransGen program.Invokes index index)

include acyclic

/-- Where there is no cycle, a path goes on to each procedure that is called. -/
lemma Path.next {callee : Nat} (leads : program.Path path index)
    (invokes : program.Invokes index callee) : program.Path (index :: path) callee where
  distinct := List.nodup_cons.2 ⟨fun mem => acyclic index (leads.leads index mem), leads.distinct⟩
  known := by
    obtain ⟨procedure, at_index, -⟩ := invokes
    intro earlier mem
    obtain rfl | mem := List.mem_cons.1 mem
    · exact (List.getElem?_eq_some_iff.1 at_index).1
    · exact leads.known earlier mem
  leads := by
    intro earlier mem
    obtain rfl | mem := List.mem_cons.1 mem
    · exact .single invokes
    · exact (leads.leads earlier mem).tail invokes

/-- A path is no longer than there are procedures, and shorter if it leads to one that can call. -/
lemma Path.length_lt (leads : program.Path path index)
    (at_index : program.procedures[index]? = some procedure) :
    path.length < program.procedures.length := by
  have new : index ∉ path := fun mem => acyclic index (leads.leads index mem)
  have among : index :: path ⊆ List.range program.procedures.length := by
    intro other mem
    rw [List.mem_range]
    obtain rfl | mem := List.mem_cons.1 mem
    · exact (List.getElem?_eq_some_iff.1 at_index).1
    · exact leads.known other mem
  have fits := ((List.nodup_cons.2 ⟨new, leads.distinct⟩).subperm among).length_le
  rwa [List.length_range] at fits

/-- One more level makes no difference behind a path that leaves no procedure for it. -/
lemma calledExtent_stable {levels : Nat} (leads : program.Path path index)
    (enough : program.procedures.length ≤ levels + path.length) :
    program.calledExtent gauge (levels + 1) index = program.calledExtent gauge levels index := by
  -- on the levels: each of them takes one procedure that is not on the path yet
  induction levels generalizing path index with
  | zero =>
    cases at_index : program.procedures[index]? with
    | none => rw [calledExtent_of_none at_index, calledExtent_of_none at_index]
    | some procedure =>
      have := leads.length_lt acyclic at_index
      omega
  | succ levels ih =>
    cases at_index : program.procedures[index]? with
    | none => rw [calledExtent_of_none at_index, calledExtent_of_none at_index]
    | some procedure =>
      rw [calledExtent_of_some at_index, calledExtent_of_some at_index]
      refine bodyExtent_congr procedure.body fun callee mem => ?_
      refine ih (leads.next acyclic ⟨procedure, at_index, mem⟩) ?_
      rw [List.length_cons]
      omega

/-- The extent of a procedure is that of its body. -/
theorem procedureExtent_eq (at_index : program.procedures[index]? = some procedure) :
    program.procedureExtent gauge index =
      bodyExtent gauge (program.procedureExtent gauge) procedure.body := by
  have start : program.Path [] index := ⟨.nil, by simp, by simp⟩
  have stable : program.calledExtent gauge (program.procedures.length + 1) index =
      program.procedureExtent gauge index :=
    calledExtent_stable acyclic start (Nat.le_refl program.procedures.length)
  rw [calledExtent_of_some at_index] at stable
  exact stable.symm

end

end Program

end BlockPuzzle
