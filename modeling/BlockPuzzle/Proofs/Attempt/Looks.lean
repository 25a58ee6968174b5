import BlockPuzzle.Attempt.Walk
import BlockPuzzle.Proofs.Attempt.Senses
import BlockPuzzle.Proofs.Attempt.Transcript

/-!
# What looks find

The first look of a block is answered by the board. What later ones are answered is up to the rule for
senses: `SenseRule.Governs` says what both rules come to in a journal, and how many answers diverge from
the first one of their block. Both are kept by every entry that is no look, and by every look that is
answered by the rule: `Governs.concat`, `divergences_acted` and `divergences_looked`.
-/

namespace BlockPuzzle

/-- Whether an agent in some pose could step to one side. -/
def Board.sees (board : Board) (pose : Pose) (toward : Bearing) : Bool :=
  board.passage pose.position toward == .clear

/-- Behind some entries the next one is a look of a block, and its answer. -/
def LooksBehind (entries earlier : List Entry) (block : BlockId) (toward : Bearing) (clear : Bool) :
    Prop :=
  earlier ++ [⟨block, .sense toward clear⟩] <+: entries

/-- The answer that an entry gives to a block, if it is one of its looks. -/
def Entry.answer? (entry : Entry) (block : BlockId) : Option Bool :=
  match entry.action with
  | .sense _ clear => if entry.block = block then some clear else none
  | _ => none

/-- The answer to the first look of a block, if it has looked. -/
def firstAnswer? (entries : List Entry) (block : BlockId) : Option Bool :=
  entries.findSome? (·.answer? block)

/-- Whether an entry is a look with another answer than the first look of its block. -/
def Entry.diverges (entries : List Entry) (entry : Entry) : Bool :=
  match entry.action with
  | .sense _ clear => firstAnswer? entries entry.block != some clear
  | _ => false

namespace SenseRule

/-- The answer to a look, given the first answer of its block and what is seen now. -/
def answer (rule : SenseRule) (first seen : Bool) : Bool :=
  match rule with
  | .recompute => seen
  | .firstSticks => first

/-- How much a look adds to the count of answers that diverge from the first one. -/
def divergence (rule : SenseRule) (first seen : Bool) : Nat :=
  match rule with
  | .recompute => if first == seen then 0 else 1
  | .firstSticks => 0

/-- How many answers of a journal diverge, as it is counted by a rule. -/
def divergences (rule : SenseRule) (entries : List Entry) : Nat :=
  match rule with
  | .recompute => entries.countP (Entry.diverges entries)
  | .firstSticks => 0

/-- The first look of every block is answered by what is seen from where the agent is then. By one rule
so are all the others, and by the other one they get the first answer of their block. -/
structure Governs (rule : SenseRule) (board : Board) (start : Pose) (entries : List Entry) :
    Prop where
  first : ∀ {earlier block toward clear}, LooksBehind entries earlier block toward clear →
    block ∉ sensing earlier → clear = board.sees (carryOut start earlier) toward
  recompute : rule = .recompute → ∀ {earlier block toward clear},
    LooksBehind entries earlier block toward clear →
    clear = board.sees (carryOut start earlier) toward
  firstSticks : rule = .firstSticks → ∀ {earlier block toward clear},
    LooksBehind entries earlier block toward clear → firstAnswer? entries block = some clear

end SenseRule

/-! ## First answers -/

section

variable {entries earlier : List Entry} {entry : Entry} {block : BlockId} {toward : Bearing}
  {clear : Bool}

/-- A look of a longer journal is the last entry, or a look of the entries before it. -/
lemma looksBehind_concat_iff : LooksBehind (entries ++ [entry]) earlier block toward clear ↔
    (earlier = entries ∧ entry = ⟨block, .sense toward clear⟩) ∨
      LooksBehind entries earlier block toward clear := by
  unfold LooksBehind
  rw [List.prefix_concat_iff, List.append_singleton_inj, eq_comm (a := Entry.mk _ _)]

/-- The block of a look is among those that sense. -/
lemma mem_sensing (mem : ⟨block, .sense toward clear⟩ ∈ entries) : block ∈ sensing entries :=
  List.mem_map_of_mem (List.mem_filter.2 ⟨mem, rfl⟩)

/-- So is that of a look behind some entries. -/
lemma LooksBehind.mem_sensing (looks : LooksBehind entries earlier block toward clear) :
    block ∈ sensing entries :=
  BlockPuzzle.mem_sensing (looks.subset List.mem_concat_self)

/-- A block has a first answer if it has looked. -/
lemma firstAnswer?_isSome_iff : (firstAnswer? entries block).isSome ↔ block ∈ sensing entries := by
  unfold firstAnswer? sensing
  rw [List.findSome?_isSome_iff, List.mem_map]
  constructor
  · rintro ⟨⟨by_block, action⟩, mem, answered⟩
    cases action with
    | sense toward clear =>
      by_cases same : by_block = block
      · exact ⟨_, List.mem_filter.2 ⟨mem, rfl⟩, same⟩
      · simp [Entry.answer?, same] at answered
    | _ => cases answered
  · rintro ⟨⟨by_block, action⟩, mem, rfl⟩
    obtain ⟨mem, look⟩ := List.mem_filter.1 mem
    cases action with
    | sense toward clear => exact ⟨_, mem, by simp [Entry.answer?]⟩
    | _ => cases look

/-- The first answer of a block is in the first part, if it has one there. -/
lemma firstAnswer?_append (entries others : List Entry) (block : BlockId) :
    firstAnswer? (entries ++ others) block =
      (firstAnswer? entries block).or (firstAnswer? others block) :=
  List.findSome?_append

/-- An entry that is no look is no first answer. -/
lemma firstAnswer?_acted (acts : entry.action.isSense = false) :
    firstAnswer? (entries ++ [entry]) block = firstAnswer? entries block := by
  have none : entry.answer? block = none := by
    obtain ⟨by_block, action⟩ := entry
    cases action with
    | sense => cases acts
    | _ => rfl
  rw [firstAnswer?_append, firstAnswer?, firstAnswer?, List.findSome?_singleton, none,
    Option.or_none]

/-- The answer to a look is the first one of its block, unless there was one before. -/
lemma firstAnswer?_looked (entries : List Entry) (block : BlockId) (toward : Bearing) (clear : Bool)
    (other : BlockId) :
    firstAnswer? (entries ++ [⟨block, .sense toward clear⟩]) other =
      if other = block then some ((firstAnswer? entries block).getD clear)
      else firstAnswer? entries other := by
  rw [firstAnswer?_append]
  by_cases own : other = block
  · have look : firstAnswer? [⟨block, .sense toward clear⟩] block = some clear := by
      simp [firstAnswer?, Entry.answer?]
    rw [if_pos own, own, look]
    cases firstAnswer? entries block with
    | none => rfl
    | some first => rfl
  · have look : firstAnswer? [⟨block, .sense toward clear⟩] other = none := by
      simp [firstAnswer?, Entry.answer?, Ne.symm own]
    rw [if_neg own, look, Option.or_none]

/-- First answers stay. -/
lemma firstAnswer?_append_of_mem (others : List Entry) (mem : block ∈ sensing entries) :
    firstAnswer? (entries ++ others) block = firstAnswer? entries block := by
  obtain ⟨first, answered⟩ := Option.isSome_iff_exists.1 (firstAnswer?_isSome_iff.2 mem)
  rw [firstAnswer?_append, answered]
  rfl

/-- Whether an entry diverges shows when it is written. -/
lemma Entry.diverges_append (others : List Entry) (mem : entry ∈ entries) :
    entry.diverges (entries ++ others) = entry.diverges entries := by
  obtain ⟨block, action⟩ := entry
  cases action with
  | sense toward clear =>
    simp only [diverges, firstAnswer?_append_of_mem others (mem_sensing mem)]
  | _ => rfl

end

/-! ## Keeping the rule -/

namespace SenseRule

variable {entries : List Entry} {entry : Entry}

/-- Divergences are counted entry by entry. -/
lemma divergences_concat (rule : SenseRule) (entries : List Entry) (entry : Entry) :
    rule.divergences (entries ++ [entry]) = rule.divergences entries +
      if rule = .recompute ∧ entry.diverges (entries ++ [entry]) then 1 else 0 := by
  cases rule with
  | recompute =>
    have same : entries.countP (Entry.diverges (entries ++ [entry])) =
        entries.countP (Entry.diverges entries) := by
      apply List.countP_congr
      intro other mem
      rw [Entry.diverges_append [entry] mem]
    simp only [divergences, List.countP_append, same, List.countP_singleton, true_and]
  | firstSticks => rfl

/-- An act does not change how many answers diverge. -/
lemma divergences_acted (rule : SenseRule) (acts : entry.action.isSense = false) :
    rule.divergences (entries ++ [entry]) = rule.divergences entries := by
  obtain ⟨block, action⟩ := entry
  cases action with
  | sense => cases acts
  | _ => simp [divergences_concat, Entry.diverges]

/-- Whatever the rule is, a first look is answered by what is seen. -/
lemma answer_self (rule : SenseRule) (seen : Bool) : rule.answer seen seen = seen := by
  cases rule <;> rfl

/-- An answer by the rule leaves a block the first answer that the rule was given. -/
lemma firstAnswer?_answered (rule : SenseRule) (entries : List Entry) (block : BlockId)
    (toward : Bearing) (seen : Bool) (other : BlockId) :
    let first := (firstAnswer? entries block).getD seen
    firstAnswer? (entries ++ [⟨block, .sense toward (rule.answer first seen)⟩]) other =
      if other = block then some first else firstAnswer? entries other := by
  intro first
  rw [firstAnswer?_looked]
  simp only [first]
  cases firstAnswer? entries block with
  | none => rw [Option.getD_none, Option.getD_none, answer_self]
  | some known => rfl

/-- A look diverges if something else is seen than at first, and if the answer is what is seen. -/
lemma divergences_looked (rule : SenseRule) (entries : List Entry) (block : BlockId)
    (toward : Bearing) (seen : Bool) :
    let first := (firstAnswer? entries block).getD seen
    rule.divergences (entries ++ [⟨block, .sense toward (rule.answer first seen)⟩]) =
      rule.divergences entries + rule.divergence first seen := by
  intro first
  rw [divergences_concat]
  cases rule with
  | recompute =>
    have own : firstAnswer? (entries ++ [⟨block, .sense toward seen⟩]) block = some first :=
      (firstAnswer?_answered .recompute entries block toward seen block).trans (if_pos rfl)
    simp only [Entry.diverges, answer, divergence, own]
    by_cases same : first = seen
    · simp [same]
    · simp [same]
  | firstSticks => rfl

/-- The second look of a block finds something else, the one of another block does not count. -/
example : SenseRule.recompute.divergences
    [⟨"a", .sense .east true⟩, ⟨"b", .sense .north false⟩, ⟨"a", .sense .north false⟩] = 1 := by
  decide

variable {rule : SenseRule} {board : Board} {start : Pose}

/-- Nothing has been looked at yet. -/
lemma Governs.nil (rule : SenseRule) (board : Board) (start : Pose) :
    rule.Governs board start [] where
  first looks := absurd looks.mem_sensing List.not_mem_nil
  recompute _ _ _ _ _ looks := absurd looks.mem_sensing List.not_mem_nil
  firstSticks _ _ _ _ _ looks := absurd looks.mem_sensing List.not_mem_nil

/-- An entry keeps the rule if it is answered by the rule, or is no look. -/
lemma Governs.concat (governs : rule.Governs board start entries)
    (looked : ∀ {block toward clear}, entry = ⟨block, .sense toward clear⟩ →
      let seen := board.sees (carryOut start entries) toward
      clear = rule.answer ((firstAnswer? entries block).getD seen) seen) :
    rule.Governs board start (entries ++ [entry]) := by
  constructor
  · intro earlier block toward clear looks new
    obtain ⟨rfl, same⟩ | looks := looksBehind_concat_iff.1 looks
    · have none : firstAnswer? earlier block = none := by
        rw [← Option.not_isSome_iff_eq_none, firstAnswer?_isSome_iff]
        exact new
      rw [looked same, none]
      exact answer_self rule _
    · exact governs.first looks new
  · rintro rfl earlier block toward clear looks
    obtain ⟨rfl, same⟩ | looks := looksBehind_concat_iff.1 looks
    · exact looked same
    · exact governs.recompute rfl looks
  · rintro rfl earlier block toward clear looks
    obtain ⟨rfl, rfl⟩ | looks := looksBehind_concat_iff.1 looks
    · rw [looked rfl, firstAnswer?_answered, if_pos rfl]
      rfl
    · rw [firstAnswer?_append_of_mem _ looks.mem_sensing]
      exact governs.firstSticks rfl looks

end SenseRule

end BlockPuzzle
