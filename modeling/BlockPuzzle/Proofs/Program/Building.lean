import Mathlib.Data.List.Nodup
import BlockPuzzle.Proofs.Program.Grammar
import BlockPuzzle.Proofs.Results

/-!
# Building programs

What is built from forms is the program that they stand for in the grammar (`Program.ofForms_sound`),
and all scripts are built (`Program.ofForms_complete`). For each function that reads forms one lemma says
that what it reads is right, and another one that all that is right is read.
-/

namespace BlockPuzzle

/-- A text is read as a bearing just if it is one of its spellings, in capitals or not. -/
lemma Bearing.ofText?_eq_some_iff {text : String} {bearing : Bearing} :
    ofText? text = some bearing ↔ text.toLower ∈ bearing.spellings := by
  unfold ofText?
  generalize text.toLower = spelling
  constructor
  · intro spells
    unfold ofLowercase? at spells
    split at spells <;> cases spells <;> decide +kernel
  · intro mem
    have all : ∀ spelling ∈ bearing.spellings, ofLowercase? spelling = some bearing := by
      cases bearing <;> decide +kernel
    exact all spelling mem

namespace Form

variable {form : Form}

/-- A form is read as a name just if it is one. -/
lemma toName_iff {name : String} : form.toName = .ok name ↔ form.name? = some name := by
  unfold toName
  cases form.name? with
  | none => simp
  | some name' => simp

/-- A form is read as a block just if it is one. -/
lemma toBlock_iff {block : BlockId} : form.toBlock = .ok block ↔ form.IsBlock block := by
  unfold toBlock IsBlock
  cases form.name? with
  | none => simp
  | some name =>
    by_cases empty : name = ""
    · simp [empty]
    · simp only [String.isEmpty_iff, empty, if_false]
      grind

/-- A form is read as a bearing just if it is one. -/
lemma toBearing_iff {bearing : Bearing} :
    form.toBearing = .ok bearing ↔ form.IsBearing bearing := by
  unfold toBearing IsBearing
  cases form.name? with
  | none => simp
  | some name =>
    have spells : Bearing.ofText? name = some bearing ↔ name.toLower ∈ bearing.spellings :=
      Bearing.ofText?_eq_some_iff
    cases spelled : Bearing.ofText? name with
    | none => simp_all
    | some bearing' => simp_all

/-- A form is read as a count just if it is that integer. -/
lemma toCount_iff {times : UInt32} :
    form.toCount = .ok times ↔ form = .integer times.toNat := by
  constructor
  · intro counts
    unfold toCount at counts
    split at counts
    · next n =>
      by_cases fits : 0 ≤ n ∧ n < 4294967296
      · rw [if_pos fits] at counts
        cases counts
        have small : n.toNat < UInt32.size := by
          unfold UInt32.size
          omega
        rw [UInt32.toNat_ofNat_of_lt' small, Int.toNat_of_nonneg fits.1]
      · rw [if_neg fits] at counts
        cases counts
    · cases counts
  · rintro rfl
    have fits : 0 ≤ (times.toNat : Int) ∧ (times.toNat : Int) < 4294967296 := by
      have := times.toNat_lt
      omega
    simp only [toCount, fits, and_self, if_true, Int.toNat_natCast, UInt32.ofNat_toNat]

/-- Among distinct names the first place of a name is its only one. -/
lemma idxOf?_eq_some_iff {names : List String} (distinct : names.Nodup) {name : String}
    {index : Nat} : names.idxOf? name = some index ↔ names[index]? = some name := by
  rw [List.idxOf?_eq_some_iff, List.getElem?_eq_some_iff]
  refine exists_congr fun bound => and_iff_left_of_imp ?_
  rintro rfl earlier less same
  exact absurd (distinct.getElem_inj_iff.1 same) (Nat.ne_of_lt less)

/-- A relation of the items of two lists may be weakened for the items of the first one. -/
lemma forall₂_of_mem {α β : Type} {R S : α → β → Prop} {xs : List α} {ys : List β}
    (sound : ∀ x ∈ xs, ∀ {y}, R x y → S x y) (all : List.Forall₂ R xs ys) : List.Forall₂ S xs ys :=
  ((List.forall₂_and_left (p := fun x => ∀ y, R x y → S x y) xs ys).2
    ⟨fun x mem _ => sound x mem, all⟩).imp fun _ y both => both.1 y both.2

/-- What holds of each item that is related to another one holds of all items of a list that is
related to another one. -/
lemma forall_mem_of_forall₂ {α β : Type} {R : α → β → Prop} {P : α → Prop} {xs : List α}
    {ys : List β} (sound : ∀ x ∈ xs, ∀ {y}, R x y → P x) (all : List.Forall₂ R xs ys) :
    ∀ x ∈ xs, P x := by
  induction all with
  | nil => exact fun _ mem => absurd mem List.not_mem_nil
  | cons is _ ih =>
    refine List.forall_mem_cons.2 ⟨sound _ List.mem_cons_self is, ih ?_⟩
    exact fun x mem _ => sound x (.tail _ mem)

/-! ## Conditions -/

/-- What is read behind the word for a path is a condition. -/
lemma toPath_sound {rules : Rules} {word : String} {side : Side} {items : List Form}
    {condition : Condition} (mem : (word, side) ∈ pathWords)
    (reads : toPath side items = .ok condition) :
    IsCondition rules (.list (.symbol word :: items)) condition := by
  unfold toPath at reads
  split at reads
  · obtain ⟨block, isBlock, result⟩ := bind_eq_ok.1 reads
    cases result
    exact .path mem (toBlock_iff.1 isBlock)
  · cases reads

/-- Each of the words for a path reads its own side. -/
lemma toCondition_path {word : String} {side : Side} (mem : (word, side) ∈ pathWords)
    (items : List Form) : (list (symbol word :: items)).toCondition = toPath side items := by
  simp only [pathWords, List.mem_cons, Prod.mk.injEq, List.not_mem_nil, or_false] at mem
  obtain ⟨rfl, rfl⟩ | ⟨rfl, rfl⟩ | ⟨rfl, rfl⟩ | ⟨rfl, rfl⟩ := mem
  all_goals rfl

/-- A path with one block is read. -/
lemma toPath_complete {side : Side} {block : BlockId} (isBlock : form.IsBlock block) :
    toPath side [form] = .ok (.path side block) :=
  bind_eq_ok.2 ⟨block, toBlock_iff.2 isBlock, rfl⟩

/-- A list of conditions is read one after the other. -/
lemma toConditions_iff {forms : List Form} {items : List Condition} :
    toConditions forms = .ok items ↔
      List.Forall₂ (fun form item => form.toCondition = .ok item) forms items := by
  induction forms generalizing items with
  | nil =>
    rw [toConditions, Except.ok.injEq, List.forall₂_nil_left_iff]
    exact eq_comm
  | cons form forms ih =>
    rw [toConditions, bind_eq_ok, List.forall₂_cons_left_iff]
    simp only [bind_eq_ok, pure_eq_ok, ih]
    grind

/-- What is read as a condition is one. -/
theorem toCondition_sound {condition : Condition} (reads : form.toCondition = .ok condition) :
    form.IsCondition .lenient condition := by
  induction form generalizing condition with
  | symbol name => cases reads
  | text value => cases reads
  | integer value => cases reads
  | boolean value =>
    cases reads
    exact .literal
  | list items ih =>
    unfold toCondition at reads
    split at reads
    · next same => cases same
    · next head forms same =>
      cases same
      have each : ∀ form ∈ forms, ∀ {condition}, form.toCondition = .ok condition →
          form.IsCondition .lenient condition := fun form mem _ =>
        ih form (.tail (.item mem))
      have all : ∀ {items}, toConditions forms = .ok items →
          List.Forall₂ (IsCondition .lenient) forms items := fun reads =>
        forall₂_of_mem each (toConditions_iff.1 reads)
      split at reads
      · exact toPath_sound (by decide) reads
      · exact toPath_sound (by decide) reads
      · exact toPath_sound (by decide) reads
      · exact toPath_sound (by decide) reads
      · cases reads
        exact .notDone Rules.noConfusion
      · split at reads
        · next form =>
          obtain ⟨inner, is, result⟩ := bind_eq_ok.1 reads
          cases result
          exact .negation (each form List.mem_cons_self is)
        · cases reads
      · obtain ⟨items, are, result⟩ := bind_eq_ok.1 reads
        cases result
        exact .all (all are)
      · obtain ⟨items, are, result⟩ := bind_eq_ok.1 reads
        cases result
        exact .any (all are)
      · cases reads
    · cases reads
    · cases reads

/-- A condition is read as what it stands for. -/
theorem toCondition_complete {rules : Rules} {condition : Condition}
    (is : form.IsCondition rules condition) : form.toCondition = .ok condition := by
  induction form generalizing condition with
  | symbol name => cases is
  | text value => cases is
  | integer value => cases is
  | boolean value =>
    cases is
    rfl
  | list items ih =>
    cases is with
    | path mem isBlock => exact (toCondition_path mem _).trans (toPath_complete isBlock)
    | notDone => rfl
    | negation is =>
      exact bind_eq_ok.2 ⟨_, ih _ (.tail (.item List.mem_cons_self)) is, rfl⟩
    | all all =>
      have all := forall₂_of_mem (fun form mem _ => ih form (.tail (.item mem))) all
      exact bind_eq_ok.2 ⟨_, toConditions_iff.2 all, rfl⟩
    | any all =>
      have all := forall₂_of_mem (fun form mem _ => ih form (.tail (.item mem))) all
      exact bind_eq_ok.2 ⟨_, toConditions_iff.2 all, rfl⟩

/-! ## Statements -/

variable {rules : Rules} {procedures : List String} {statement : Statement}

/-- What is read behind the word for a command is a statement. -/
lemma toCommand_sound {word : String} {command : Command} {items : List Form}
    (mem : (word, command) ∈ commandWords) (reads : toCommand command items = .ok statement) :
    IsStatement rules procedures (.list (.symbol word :: items)) statement := by
  unfold toCommand at reads
  split at reads
  · obtain ⟨block, isBlock, result⟩ := bind_eq_ok.1 reads
    cases result
    exact .command mem (toBlock_iff.1 isBlock)
  · cases reads

/-- Each of the words for a command reads its own command. -/
lemma toStatement_command {word : String} {command : Command}
    (mem : (word, command) ∈ commandWords) (items : List Form) :
    toStatement procedures (.list (.symbol word :: items)) = toCommand command items := by
  simp only [commandWords, List.mem_cons, Prod.mk.injEq, List.not_mem_nil, or_false] at mem
  obtain ⟨rfl, rfl⟩ | ⟨rfl, rfl⟩ | ⟨rfl, rfl⟩ | ⟨rfl, rfl⟩ | ⟨rfl, rfl⟩ := mem
  all_goals rfl

/-- A command with one block is read. -/
lemma toCommand_complete {command : Command} {block : BlockId} (isBlock : form.IsBlock block) :
    toCommand command [form] = .ok (.command command block) :=
  bind_eq_ok.2 ⟨block, toBlock_iff.2 isBlock, rfl⟩

/-- What is read behind the word for a turn is a statement. -/
lemma toTurn_sound {items : List Form} (reads : toTurn items = .ok statement) :
    IsStatement rules procedures (.list (.symbol "turn" :: items)) statement := by
  unfold toTurn at reads
  split at reads
  · obtain ⟨bearing, isBearing, reads⟩ := bind_eq_ok.1 reads
    obtain ⟨block, isBlock, result⟩ := bind_eq_ok.1 reads
    cases result
    exact .turn (toBearing_iff.1 isBearing) (toBlock_iff.1 isBlock)
  · cases reads

/-- A turn with a bearing and a block is read. -/
lemma toTurn_complete {target : Form} {bearing : Bearing} {block : BlockId}
    (isBearing : target.IsBearing bearing) (isBlock : form.IsBlock block) :
    toTurn [target, form] = .ok (.command (.face bearing) block) :=
  bind_eq_ok.2 ⟨bearing, toBearing_iff.2 isBearing,
    bind_eq_ok.2 ⟨block, toBlock_iff.2 isBlock, rfl⟩⟩

/-- What is read behind the word for a call is a statement. -/
lemma toCall_sound (distinct : procedures.Nodup) {items : List Form}
    (reads : toCall procedures items = .ok statement) :
    IsStatement rules procedures (.list (.symbol "call" :: items)) statement := by
  unfold toCall at reads
  split at reads
  · obtain ⟨name, isName, reads⟩ := bind_eq_ok.1 reads
    split at reads
    · next index found =>
      cases reads
      exact .call (toName_iff.1 isName) ((idxOf?_eq_some_iff distinct).1 found)
    · cases reads
  · cases reads

/-- A call of a procedure that is defined is read. -/
lemma toCall_complete (distinct : procedures.Nodup) {name : String} {index : Nat}
    (isName : form.name? = some name) (found : procedures[index]? = some name) :
    toCall procedures [form] = .ok (.call index) := by
  refine bind_eq_ok.2 ⟨name, toName_iff.2 isName, ?_⟩
  rw [(idxOf?_eq_some_iff distinct).2 found]
  rfl

/-- A body is read one statement after the other. -/
lemma toBody_iff {forms : List Form} {body : List Statement} :
    toBody procedures forms = .ok body ↔
      List.Forall₂ (fun form statement => form.toStatement procedures = .ok statement) forms
        body := by
  induction forms generalizing body with
  | nil =>
    rw [toBody, Except.ok.injEq, List.forall₂_nil_left_iff]
    exact eq_comm
  | cons form forms ih =>
    rw [toBody, bind_eq_ok, List.forall₂_cons_left_iff]
    simp only [bind_eq_ok, pure_eq_ok, ih]
    grind

/-- A condition with statements behind it. -/
lemma guarded_sound {forms : List Form} {make : Condition → List Statement → Statement}
    (reads : (do
      let condition ← form.toCondition
      let body ← toBody procedures forms
      return make condition body) = .ok statement) :
    ∃ condition body, form.IsCondition .lenient condition ∧ toBody procedures forms = .ok body ∧
      make condition body = statement := by
  obtain ⟨condition, is, reads⟩ := bind_eq_ok.1 reads
  obtain ⟨body, are, result⟩ := bind_eq_ok.1 reads
  exact ⟨condition, body, toCondition_sound is, are, pure_eq_ok.1 result⟩

/-- A condition and a body that can both be read are read one behind the other. -/
lemma guarded_complete {forms : List Form} {condition : Condition} {body : List Statement}
    (is : form.IsCondition rules condition) (are : toBody procedures forms = .ok body)
    (make : Condition → List Statement → Statement) :
    (do
      let condition ← form.toCondition
      let body ← toBody procedures forms
      return make condition body) = .ok (make condition body) :=
  bind_eq_ok.2 ⟨condition, toCondition_complete is, bind_eq_ok.2 ⟨body, are, rfl⟩⟩

/-- The arms of a branch are arms if what is read in them as a statement is one. -/
lemma toArms_sound {forms : List Form} {arms : List Arm} {otherwise : Option (List Statement)}
    (each : ∀ form, Within form forms → ∀ {statement},
      form.toStatement procedures = .ok statement →
      IsStatement .lenient procedures form statement)
    (reads : toArms procedures forms = .ok (arms, otherwise)) :
    IsArms .lenient procedures forms arms otherwise := by
  induction forms generalizing arms otherwise with
  | nil =>
    cases reads
    exact .none
  | cons form forms ih =>
    have all : ∀ {inner items body}, form = .list inner → (∀ item ∈ items, item ∈ inner) →
        toBody procedures items = .ok body →
        List.Forall₂ (IsStatement .lenient procedures) items body := by
      intro inner items body same subset reads
      refine forall₂_of_mem (fun item mem _ => each item ?_) (toBody_iff.1 reads)
      exact .deeper (same ▸ List.mem_cons_self) (.item (subset item mem))
    unfold toArms at reads
    split at reads
    · next same => cases same
    · next items others same =>
      cases same
      split at reads
      · next condition items =>
        obtain ⟨condition, is, reads⟩ := bind_eq_ok.1 reads
        obtain ⟨body, are, reads⟩ := bind_eq_ok.1 reads
        obtain ⟨⟨arms', otherwise'⟩, rest, result⟩ := bind_eq_ok.1 reads
        cases result
        refine .when (toCondition_sound is) (all rfl ?_ are)
          (ih (fun form within => each form within.tail) rest)
        exact fun item mem => .tail _ (.tail _ mem)
      · cases reads
    · next items others same =>
      cases same
      obtain ⟨body, are, reads⟩ := bind_eq_ok.1 reads
      split at reads
      · cases reads
        exact .otherwise (all rfl (fun item mem => .tail _ mem) are)
      · cases reads
      · cases reads
    · cases reads
    · cases reads

/-- What is read as a statement is one. -/
theorem toStatement_sound (distinct : procedures.Nodup)
    (reads : form.toStatement procedures = .ok statement) :
    IsStatement .lenient procedures form statement := by
  induction form generalizing statement with
  | symbol name => cases reads
  | text value => cases reads
  | integer value => cases reads
  | boolean value => cases reads
  | list items ih =>
    unfold toStatement at reads
    split at reads
    · next head forms same =>
      cases same
      -- statements stand right in the list, but those of an arm stand deeper
      have all : ∀ {forms' body}, (∀ form ∈ forms', form ∈ forms) →
          toBody procedures forms' = .ok body →
          List.Forall₂ (IsStatement .lenient procedures) forms' body := fun subset reads =>
        forall₂_of_mem (fun form mem _ => ih form (.tail (.item (subset form mem))))
          (toBody_iff.1 reads)
      split at reads
      · exact toCommand_sound (by decide) reads
      · exact toCommand_sound (by decide) reads
      · exact toCommand_sound (by decide) reads
      · exact toCommand_sound (by decide) reads
      · exact toCommand_sound (by decide) reads
      · exact toTurn_sound reads
      · split at reads
        · obtain ⟨times, counts, reads⟩ := bind_eq_ok.1 reads
          obtain ⟨body, are, result⟩ := bind_eq_ok.1 reads
          cases result
          cases toCount_iff.1 counts
          exact .loop (all (fun form mem => .tail _ mem) are)
        · cases reads
      · split at reads
        · obtain ⟨condition, body, is, are, rfl⟩ := guarded_sound reads
          exact .whileHolds is (all (fun form mem => .tail _ mem) are)
        · cases reads
      · split at reads
        · obtain ⟨condition, body, is, are, rfl⟩ := guarded_sound reads
          exact .untilHolds is (all (fun form mem => .tail _ mem) are)
        · cases reads
      · obtain ⟨body, are, result⟩ := bind_eq_ok.1 reads
        cases result
        exact .forever (all (fun form mem => mem) are)
      · split at reads
        · obtain ⟨condition, body, is, are, rfl⟩ := guarded_sound reads
          exact .single is (all (fun form mem => .tail _ mem) are)
        · cases reads
      · obtain ⟨⟨arms, otherwise⟩, are, result⟩ := bind_eq_ok.1 reads
        cases result
        exact .branch (toArms_sound (fun form within => ih form within.tail) are)
      · exact toCall_sound distinct reads
      · cases reads
      · cases reads
      · cases reads
    · cases reads
    · cases reads

/-- Arms are read as what they stand for if the statements in them are. -/
lemma toArms_complete {forms : List Form} {arms : List Arm} {otherwise : Option (List Statement)}
    (each : ∀ form, Within form forms → ∀ {statement},
      IsStatement rules procedures form statement →
      form.toStatement procedures = .ok statement)
    (are : IsArms rules procedures forms arms otherwise) :
    toArms procedures forms = .ok (arms, otherwise) := by
  induction forms generalizing arms otherwise with
  | nil =>
    cases are
    rfl
  | cons form forms ih =>
    have all : ∀ {inner items body}, form = .list inner → (∀ item ∈ items, item ∈ inner) →
        List.Forall₂ (IsStatement rules procedures) items body →
        toBody procedures items = .ok body := by
      intro inner items body same subset are
      refine toBody_iff.2 (forall₂_of_mem (fun item mem _ => each item ?_) are)
      exact .deeper (same ▸ List.mem_cons_self) (.item (subset item mem))
    cases are with
    | otherwise body =>
      have body := all rfl (fun item mem => .tail _ mem) body
      exact bind_eq_ok.2 ⟨_, body, rfl⟩
    | when is body rest =>
      have body := all rfl
        (fun item mem => .tail _ (.tail _ mem)) body
      have rest := ih (fun form within => each form within.tail) rest
      exact bind_eq_ok.2 ⟨_, toCondition_complete is,
        bind_eq_ok.2 ⟨_, body, bind_eq_ok.2 ⟨_, rest, rfl⟩⟩⟩

/-- A statement is read as what it stands for. -/
theorem toStatement_complete (distinct : procedures.Nodup)
    (is : IsStatement rules procedures form statement) :
    form.toStatement procedures = .ok statement := by
  induction form generalizing statement with
  | symbol name => cases is
  | text value => cases is
  | integer value => cases is
  | boolean value => cases is
  | list items ih =>
    have all : ∀ {forms body}, (∀ form ∈ forms, form ∈ items) →
        List.Forall₂ (IsStatement rules procedures) forms body →
        toBody procedures forms = .ok body := fun subset are =>
      toBody_iff.2 (forall₂_of_mem (fun form mem _ => ih form (.item (subset form mem))) are)
    cases is with
    | command mem isBlock =>
      exact (toStatement_command mem _).trans (toCommand_complete isBlock)
    | turn isBearing isBlock => exact toTurn_complete isBearing isBlock
    | loop are =>
      have are := all (fun form mem => .tail _ (.tail _ mem)) are
      exact bind_eq_ok.2 ⟨_, toCount_iff.2 rfl, bind_eq_ok.2 ⟨_, are, rfl⟩⟩
    | whileHolds is are =>
      exact guarded_complete is (all (fun form mem => .tail _ (.tail _ mem)) are) .whileHolds
    | untilHolds is are =>
      exact guarded_complete is (all (fun form mem => .tail _ (.tail _ mem)) are)
        fun condition => .whileHolds (.negation condition)
    | forever are =>
      have are := all (fun form mem => .tail _ mem) are
      exact bind_eq_ok.2 ⟨_, are, rfl⟩
    | single is are =>
      exact guarded_complete is (all (fun form mem => .tail _ (.tail _ mem)) are)
        fun condition body => .branch [.mk condition body] none
    | branch are =>
      have are := toArms_complete (fun form within => ih form within.tail) are
      exact bind_eq_ok.2 ⟨_, are, rfl⟩
    | call isName found => exact toCall_complete distinct isName found

/-! ## Top level -/

variable {forms : List Form} {body main : List Statement}

/-- What is read as a body consists of statements. -/
lemma toBody_sound (distinct : procedures.Nodup) (reads : toBody procedures forms = .ok body) :
    List.Forall₂ (IsStatement .lenient procedures) forms body :=
  (toBody_iff.1 reads).imp fun _ _ reads => toStatement_sound distinct reads

/-- A body that consists of statements is read. -/
lemma toBody_complete (distinct : procedures.Nodup)
    (are : List.Forall₂ (IsStatement rules procedures) forms body) :
    toBody procedures forms = .ok body :=
  toBody_iff.2 (are.imp fun _ _ is => toStatement_complete distinct is)

/-- A definition is a list that begins with its word. -/
lemma definition?_eq_some_iff {items : List Form} :
    form.definition? = some items ↔ form = .list (.symbol "define" :: items) := by
  constructor
  · intro is
    unfold definition? at is
    split at is
    · cases is
      rfl
    · cases is
  · rintro rfl
    rfl

/-- So is a program. -/
lemma program?_eq_some_iff {items : List Form} :
    form.program? = some items ↔ form = .list (.symbol "program" :: items) := by
  constructor
  · intro is
    unfold program? at is
    split at is
    · cases is
      rfl
    · cases is
  · rintro rfl
    rfl

/-- A statement is neither a definition nor a form `program`. -/
lemma IsStatement.head (is : IsStatement rules procedures form statement) :
    form.definition? = none ∧ form.program? = none := by
  cases is with
  | command mem =>
    simp only [commandWords, List.mem_cons, Prod.mk.injEq, List.not_mem_nil, or_false] at mem
    obtain ⟨rfl, rfl⟩ | ⟨rfl, rfl⟩ | ⟨rfl, rfl⟩ | ⟨rfl, rfl⟩ | ⟨rfl, rfl⟩ := mem
    all_goals exact ⟨rfl, rfl⟩
  | _ => exact ⟨rfl, rfl⟩

/-- The main statements are read in order, and at most one form `program` is among them. -/
lemma toMain_sound (distinct : procedures.Nodup) {programSeen : Bool}
    (reads : toMain procedures programSeen forms = .ok main) :
    IsMain .lenient procedures forms main ∧
      (forms.filterMap program?).length + programSeen.toNat ≤ 1 := by
  induction forms generalizing programSeen main with
  | nil =>
    cases reads
    exact ⟨.nil, by cases programSeen <;> decide⟩
  | cons form forms ih =>
    unfold toMain at reads
    split at reads
    · next items define =>
      cases definition?_eq_some_iff.1 define
      obtain ⟨main, once⟩ := ih reads
      exact ⟨.define main, once⟩
    · next items _ program =>
      cases program?_eq_some_iff.1 program
      split at reads
      · cases reads
      · next first =>
        split at reads
        · cases reads
        · obtain ⟨body, are, reads⟩ := bind_eq_ok.1 reads
          obtain ⟨others, rest, result⟩ := bind_eq_ok.1 reads
          cases result
          obtain ⟨main, once⟩ := ih rest
          refine ⟨.program Rules.noConfusion (toBody_sound distinct are) main, ?_⟩
          rw [List.filterMap_cons, program, eq_false_of_ne_true first]
          exact once
    · next _ program =>
      obtain ⟨statement, is, reads⟩ := bind_eq_ok.1 reads
      obtain ⟨others, rest, result⟩ := bind_eq_ok.1 reads
      cases result
      obtain ⟨main, once⟩ := ih rest
      refine ⟨.statement (toStatement_sound distinct is) main, ?_⟩
      rw [List.filterMap_cons, program]
      exact once

/-- What is a main part with no more than one program is read. -/
lemma toMain_complete (distinct : procedures.Nodup) {programSeen : Bool}
    (are : IsMain rules procedures forms main)
    (once : (forms.filterMap program?).length + programSeen.toNat ≤ 1) :
    toMain procedures programSeen forms = .ok main := by
  induction are generalizing programSeen with
  | nil => rfl
  | define _ ih => exact ih once
  | @program name items forms body main _ are _ ih =>
    rw [List.filterMap_cons_some (show program? _ = some _ from rfl), List.length_cons] at once
    have first : programSeen = false := by
      cases programSeen with
      | false => rfl
      | true => exact absurd once (by simp)
    subst first
    exact bind_eq_ok.2 ⟨body, toBody_complete distinct are, bind_eq_ok.2 ⟨main, ih once, rfl⟩⟩
  | statement is _ ih =>
    obtain ⟨define, program⟩ := is.head
    rw [List.filterMap_cons_none program] at once
    rw [toMain, define, program]
    exact bind_eq_ok.2 ⟨_, toStatement_complete distinct is, bind_eq_ok.2 ⟨_, ih once, rfl⟩⟩

/-- A definition is read as a procedure, if `names` are those that can be called. -/
def Defines (names : List String) (items : List Form) (procedure : Procedure) : Prop :=
  ∃ form forms, items = form :: forms ∧ form.name? = some procedure.name ∧
    toBody names forms = .ok procedure.body

/-- The procedures that definitions are read as have distinct names, none of which was taken.
The names that can be called are those of all definitions, not of the ones read so far. -/
lemma definitions_sound {taken names : List String} {definitions : List (String × List Form)}
    {procedures : List Procedure} (defines : Form.definitions taken forms = .ok definitions)
    (reads : toProcedures names definitions = .ok procedures) :
    definitions.map Prod.fst = procedures.map Procedure.name ∧
      (procedures.map Procedure.name).Nodup ∧
      (∀ name ∈ taken, name ∉ procedures.map Procedure.name) ∧
      List.Forall₂ (Defines names) (forms.filterMap definition?) procedures := by
  induction forms generalizing taken definitions procedures with
  | nil =>
    cases defines
    cases reads
    exact ⟨rfl, .nil, fun _ _ => List.not_mem_nil, .nil⟩
  | cons form forms ih =>
    unfold Form.definitions at defines
    split at defines
    · next define =>
      rw [List.filterMap_cons_none define]
      exact ih defines reads
    · cases defines
    · next name items define =>
      obtain ⟨name', isName, defines⟩ := bind_eq_ok.1 defines
      split at defines
      · cases defines
      · next free =>
        obtain ⟨others, rest, result⟩ := bind_eq_ok.1 defines
        cases result
        obtain ⟨body, are, reads⟩ := bind_eq_ok.1 reads
        obtain ⟨others', rest', result⟩ := bind_eq_ok.1 reads
        cases result
        obtain ⟨same, distinct, apart, all⟩ := ih rest rest'
        have new : name' ∉ others'.map Procedure.name := apart name' List.mem_cons_self
        refine ⟨congrArg (name' :: ·) same, List.nodup_cons.2 ⟨new, distinct⟩, ?_, ?_⟩
        · intro name'' mem
          have other : name'' ≠ name' := by
            rintro rfl
            exact free (List.contains_iff_mem.2 mem)
          exact List.not_mem_cons_of_ne_of_not_mem other (apart name'' (.tail _ mem))
        · rw [List.filterMap_cons_some define]
          exact .cons ⟨name, items, rfl, toName_iff.1 isName, are⟩ all

/-- Definitions of procedures whose names are distinct and free are read. -/
lemma definitions_complete {taken names : List String} {procedures : List Procedure}
    (distinct : (procedures.map Procedure.name).Nodup)
    (apart : ∀ name ∈ taken, name ∉ procedures.map Procedure.name)
    (all : List.Forall₂ (Defines names) (forms.filterMap definition?) procedures) :
    ∃ definitions, Form.definitions taken forms = .ok definitions ∧
      definitions.map Prod.fst = procedures.map Procedure.name ∧
      toProcedures names definitions = .ok procedures := by
  induction forms generalizing taken procedures with
  | nil =>
    cases all
    exact ⟨[], rfl, rfl, rfl⟩
  | cons form forms ih =>
    unfold Form.definitions
    cases define : form.definition? with
    | none =>
      rw [List.filterMap_cons_none define] at all
      exact ih distinct apart all
    | some items =>
      rw [List.filterMap_cons_some define] at all
      cases all with
      | @cons _ procedure _ others first all =>
        obtain ⟨name, items, rfl, isName, are⟩ := first
        obtain ⟨new, distinct⟩ := List.nodup_cons.1 distinct
        have free : ¬ taken.contains procedure.name = true := fun mem =>
          apart _ (List.contains_iff_mem.1 mem) List.mem_cons_self
        have apart' : ∀ name ∈ procedure.name :: taken, name ∉ others.map Procedure.name := by
          intro name mem
          obtain rfl | mem := List.mem_cons.1 mem
          · exact new
          · exact fun mem' => apart name mem (.tail _ mem')
        obtain ⟨rest, defines, same, reads⟩ := ih distinct apart' all
        refine ⟨(procedure.name, items) :: rest, bind_eq_ok.2 ⟨_, toName_iff.2 isName, ?_⟩,
          congrArg (procedure.name :: ·) same,
          bind_eq_ok.2 ⟨_, are, bind_eq_ok.2 ⟨_, reads, rfl⟩⟩⟩
        rw [if_neg free]
        exact bind_eq_ok.2 ⟨rest, defines, rfl⟩

end Form

namespace Program

variable {name : String} {forms : List Form} {program : Program} {rules : Rules}

/-- What is built from forms is the script that they are, under the name it was given. -/
lemma ofForms_sound (builds : ofForms name forms = .ok program) :
    program.name = name ∧ Form.IsScript .lenient forms program := by
  obtain ⟨definitions, defines, builds⟩ := bind_eq_ok.1 builds
  obtain ⟨procedures, reads, builds⟩ := bind_eq_ok.1 builds
  obtain ⟨main, isMain, result⟩ := bind_eq_ok.1 builds
  cases result
  obtain ⟨same, distinct, -, all⟩ := Form.definitions_sound defines reads
  rw [same] at isMain all
  obtain ⟨main, once⟩ := Form.toMain_sound distinct isMain
  refine ⟨rfl, distinct, all.imp ?_, once, main⟩
  rintro items procedure ⟨form, forms, rfl, isName, are⟩
  exact ⟨form, forms, rfl, isName, Form.toBody_sound distinct are⟩

/-- A script is built into the program that it stands for, by whichever rules. -/
theorem ofForms_complete (script : Form.IsScript rules forms program) :
    ofForms program.name forms = .ok program := by
  have distinct := script.distinct
  have all : List.Forall₂ (Form.Defines (program.procedures.map Procedure.name))
      (forms.filterMap Form.definition?) program.procedures := by
    refine script.procedures.imp ?_
    rintro items procedure ⟨form, forms, rfl, isName, are⟩
    exact ⟨form, forms, rfl, isName, Form.toBody_complete distinct are⟩
  obtain ⟨definitions, defines, same, reads⟩ :=
    Form.definitions_complete distinct (fun _ mem => absurd mem List.not_mem_nil) all
  have main : Form.toMain (program.procedures.map Procedure.name) false forms = .ok program.main :=
    Form.toMain_complete distinct script.main script.once
  refine bind_eq_ok.2 ⟨definitions, defines, ?_⟩
  rw [same]
  exact bind_eq_ok.2 ⟨_, reads, bind_eq_ok.2 ⟨_, main, rfl⟩⟩

end Program

end BlockPuzzle
