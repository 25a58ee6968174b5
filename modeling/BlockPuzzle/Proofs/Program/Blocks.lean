import Mathlib.Data.Finset.Card
import Mathlib.Tactic.Lemma
import BlockPuzzle.Proofs.Program.Renumbering

/-!
# The blocks that a program names

`Program.Names` says that a block occurs in a program, as the block of a command or of a look, at
any depth and in any procedure, whether it is called or not. `Program.exists_ids` says that
`blockIds` lists just these blocks, each of them once.
-/

namespace BlockPuzzle

/-! ## Lists of blocks -/

/-- The blocks of a body are those of its statements. -/
lemma mem_bodyBlocks {block : BlockId} {body : List Statement} :
    block ∈ bodyBlocks body ↔ ∃ statement ∈ body, block ∈ statement.blocks := by
  induction body with
  | nil => simp [bodyBlocks]
  | cons statement body ih => simp [bodyBlocks, ih]

/-- The blocks of an arm are those of its condition and of its body. -/
lemma Arm.mem_blocks {block : BlockId} {arm : Arm} :
    block ∈ arm.blocks ↔ block ∈ arm.condition.blocks ∨ block ∈ bodyBlocks arm.body := by
  cases arm
  exact List.mem_append

/-- The blocks of a chain of arms are those of each arm. -/
lemma mem_armsBlocks {block : BlockId} {arms : List Arm} :
    block ∈ armsBlocks arms ↔ ∃ arm ∈ arms, block ∈ arm.blocks := by
  induction arms with
  | nil => simp [armsBlocks]
  | cons arm arms ih => simp [armsBlocks, ih]

/-- The blocks of a program, each of them once and in order, are all that it lists. -/
lemma Program.mem_blockIds {program : Program} {block : BlockId} :
    block ∈ program.blockIds ↔ block ∈ program.blocks := by
  rw [blockIds, List.mem_mergeSort, List.mem_eraseDups]

/-! ## Occurrences -/

/-- A condition asks through a block. -/
inductive Condition.Asks (block : BlockId) : Condition → Prop where
  | path {side} :
    Asks block (.path side block)
  | negation {inner} :
    Asks block inner →
    Asks block (.negation inner)
  | all {item items} :
    item ∈ items →
    Asks block item →
    Asks block (.all items)
  | any {item items} :
    item ∈ items →
    Asks block item →
    Asks block (.any items)

/-- A statement names a block, in a command or in a condition, its own or one further inside. -/
inductive Statement.Names (block : BlockId) : Statement → Prop where
  | command {order} :
    Names block (.command order block)
  | loop {times body statement} :
    statement ∈ body →
    Names block statement →
    Names block (.loop times body)
  | whileAsks {condition body} :
    condition.Asks block →
    Names block (.whileHolds condition body)
  | whileHolds {condition body statement} :
    statement ∈ body →
    Names block statement →
    Names block (.whileHolds condition body)
  | forever {body statement} :
    statement ∈ body →
    Names block statement →
    Names block (.forever body)
  | armAsks {arm arms otherwise} :
    arm ∈ arms →
    arm.condition.Asks block →
    Names block (.branch arms otherwise)
  | arm {arm arms otherwise statement} :
    arm ∈ arms →
    statement ∈ arm.body →
    Names block statement →
    Names block (.branch arms otherwise)
  | otherwise {arms body statement} :
    statement ∈ body →
    Names block statement →
    Names block (.branch arms (some body))

/-- A program names a block in its main statements, or in one of its procedures. -/
inductive Program.Names (program : Program) (block : BlockId) : Prop where
  | main {statement} :
    statement ∈ program.main →
    statement.Names block →
    Names program block
  | procedure {procedure statement} :
    procedure ∈ program.procedures →
    statement ∈ procedure.body →
    statement.Names block →
    Names program block

variable {block : BlockId}

/-! ## What is listed occurs -/

mutual

/-- A condition asks each of its blocks. -/
theorem Condition.asks_of_mem : ∀ condition : Condition,
    block ∈ condition.blocks → condition.Asks block
  | .literal _, mem => absurd mem List.not_mem_nil
  | .path _ other, mem => by
    obtain rfl := List.mem_singleton.1 mem
    exact .path
  | .notDone, mem => absurd mem List.not_mem_nil
  | .negation inner, mem => .negation (inner.asks_of_mem mem)
  | .all items, mem => by
    obtain ⟨item, is, asks⟩ := conditions_ask_of_mem items mem
    exact .all is asks
  | .any items, mem => by
    obtain ⟨item, is, asks⟩ := conditions_ask_of_mem items mem
    exact .any is asks

/-- Of a list of conditions, one asks the block. -/
theorem conditions_ask_of_mem : ∀ items : List Condition,
    block ∈ conditionsBlocks items → ∃ item ∈ items, item.Asks block
  | [], mem => absurd mem List.not_mem_nil
  | item :: items, mem => by
    obtain here | later := List.mem_append.1 mem
    · exact ⟨item, List.mem_cons_self, item.asks_of_mem here⟩
    · obtain ⟨other, is, asks⟩ := conditions_ask_of_mem items later
      exact ⟨other, List.mem_cons_of_mem _ is, asks⟩

end

mutual

/-- A statement names each of its blocks. -/
theorem Statement.names_of_mem : ∀ statement : Statement,
    block ∈ statement.blocks → statement.Names block
  | .command _ other, mem => by
    obtain rfl := List.mem_singleton.1 mem
    exact .command
  | .loop _ body, mem => by
    obtain ⟨statement, is, names⟩ := body_names_of_mem body mem
    exact .loop is names
  | .whileHolds condition body, mem => by
    obtain asked | inner := List.mem_append.1 mem
    · exact .whileAsks (condition.asks_of_mem asked)
    · obtain ⟨statement, is, names⟩ := body_names_of_mem body inner
      exact .whileHolds is names
  | .forever body, mem => by
    obtain ⟨statement, is, names⟩ := body_names_of_mem body mem
    exact .forever is names
  | .branch arms otherwise, mem => by
    obtain guarded | last := List.mem_append.1 mem
    · obtain ⟨arm, is, asks | ⟨statement, among, names⟩⟩ := arms_name_of_mem arms guarded
      · exact .armAsks is asks
      · exact .arm is among names
    · obtain ⟨body, rfl, statement, is, names⟩ := otherwise_names_of_mem otherwise last
      exact .otherwise is names
  | .call _, mem => absurd mem List.not_mem_nil

/-- A block of a body is named by one of its statements. -/
theorem body_names_of_mem : ∀ body : List Statement,
    block ∈ bodyBlocks body → ∃ statement ∈ body, statement.Names block
  | [], mem => absurd mem List.not_mem_nil
  | statement :: body, mem => by
    obtain here | later := List.mem_append.1 mem
    · exact ⟨statement, List.mem_cons_self, statement.names_of_mem here⟩
    · obtain ⟨other, is, names⟩ := body_names_of_mem body later
      exact ⟨other, List.mem_cons_of_mem _ is, names⟩

/-- A block of an arm is asked by its condition or named in its body. -/
theorem Arm.names_of_mem : ∀ arm : Arm, block ∈ arm.blocks →
    arm.condition.Asks block ∨ ∃ statement ∈ arm.body, statement.Names block
  | .mk condition body, mem => by
    obtain asked | inner := List.mem_append.1 mem
    · exact .inl (condition.asks_of_mem asked)
    · exact .inr (body_names_of_mem body inner)

/-- A block of a chain of arms is asked or named in one of them. -/
theorem arms_name_of_mem : ∀ arms : List Arm, block ∈ armsBlocks arms → ∃ arm ∈ arms,
    arm.condition.Asks block ∨ ∃ statement ∈ arm.body, statement.Names block
  | [], mem => absurd mem List.not_mem_nil
  | arm :: arms, mem => by
    obtain here | later := List.mem_append.1 mem
    · exact ⟨arm, List.mem_cons_self, arm.names_of_mem here⟩
    · obtain ⟨other, is, names⟩ := arms_name_of_mem arms later
      exact ⟨other, List.mem_cons_of_mem _ is, names⟩

/-- A block of the last resort is named by one of its statements. -/
theorem otherwise_names_of_mem : ∀ otherwise : Option (List Statement),
    block ∈ otherwiseBlocks otherwise →
    ∃ body, otherwise = some body ∧ ∃ statement ∈ body, statement.Names block
  | none, mem => absurd mem List.not_mem_nil
  | some body, mem => ⟨body, rfl, body_names_of_mem body mem⟩

end

/-! ## What occurs is listed -/

/-- The blocks of a list of conditions are those of each condition. -/
lemma mem_conditionsBlocks {items : List Condition} :
    block ∈ conditionsBlocks items ↔ ∃ item ∈ items, block ∈ item.blocks := by
  induction items with
  | nil => simp [conditionsBlocks]
  | cons item items ih => simp [conditionsBlocks, ih]

/-- A condition asks nothing but its blocks. -/
lemma Condition.Asks.mem {condition : Condition} (asks : condition.Asks block) :
    block ∈ condition.blocks := by
  induction asks with
  | path => exact List.mem_singleton_self block
  | negation _ ih => exact ih
  | all is _ ih => exact mem_conditionsBlocks.2 ⟨_, is, ih⟩
  | any is _ ih => exact mem_conditionsBlocks.2 ⟨_, is, ih⟩

/-- A statement names nothing but its blocks. -/
lemma Statement.Names.mem {statement : Statement} (names : statement.Names block) :
    block ∈ statement.blocks := by
  induction names with
  | command => exact List.mem_singleton_self block
  | loop is _ ih => exact mem_bodyBlocks.2 ⟨_, is, ih⟩
  | whileAsks asks => exact List.mem_append_left _ asks.mem
  | whileHolds is _ ih => exact List.mem_append_right _ (mem_bodyBlocks.2 ⟨_, is, ih⟩)
  | forever is _ ih => exact mem_bodyBlocks.2 ⟨_, is, ih⟩
  | armAsks is asks =>
    exact List.mem_append_left _ (mem_armsBlocks.2 ⟨_, is, Arm.mem_blocks.2 (.inl asks.mem)⟩)
  | arm is among _ ih =>
    have inner := Arm.mem_blocks.2 (.inr (mem_bodyBlocks.2 ⟨_, among, ih⟩))
    exact List.mem_append_left _ (mem_armsBlocks.2 ⟨_, is, inner⟩)
  | otherwise is _ ih => exact List.mem_append_right _ (mem_bodyBlocks.2 ⟨_, is, ih⟩)

namespace Program

variable {program : Program}

/-- A block is listed if it occurs anywhere in the program. -/
lemma mem_blockIds_iff : block ∈ program.blockIds ↔ program.Names block := by
  rw [mem_blockIds, blocks, List.mem_append, List.mem_flatMap]
  constructor
  · rintro (main | ⟨procedure, is, mem⟩)
    · obtain ⟨statement, among, names⟩ := body_names_of_mem program.main main
      exact .main among names
    · obtain ⟨statement, among, names⟩ := body_names_of_mem procedure.body mem
      exact .procedure is among names
  · rintro (⟨among, names⟩ | ⟨is, among, names⟩)
    · exact .inl (mem_bodyBlocks.2 ⟨_, among, names.mem⟩)
    · exact .inr ⟨_, is, mem_bodyBlocks.2 ⟨_, among, names.mem⟩⟩

/-- No block is counted twice. -/
lemma nodup_blockIds (program : Program) : program.blockIds.Nodup :=
  (List.mergeSort_perm _ _).nodup_iff.2 (nodup_eraseDups _)

/-- The blocks that occur in a program are as many as it lists. -/
theorem exists_ids (program : Program) : ∃ ids : Finset BlockId,
    (∀ block, block ∈ ids ↔ program.Names block) ∧ ids.card = program.blockIds.length :=
  ⟨⟨program.blockIds, program.nodup_blockIds⟩, fun _ => mem_blockIds_iff, rfl⟩

end Program

end BlockPuzzle
