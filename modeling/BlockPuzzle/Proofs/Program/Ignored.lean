import BlockPuzzle.Proofs.Program.Building

/-!
# Items that are ignored

Forms are built into a program if they are a script by the lenient rules. By the documented ones they
are a script if, besides, nothing in them is ignored: `Program.ofForms_iff_isScript`. What is ignored
are the items behind `not-done` and the item in the place of the name of a script, and
`Program.ofForms_ignores` shows both.
-/

namespace BlockPuzzle

namespace Form

/-- Nothing stands behind `not-done`, at any depth. -/
inductive Tidy : Form → Prop where
  | atom {form : Form} :
    (∀ items, form ≠ .list items) →
    Tidy form
  | list {items : List Form} :
    (∀ ignored, items = .symbol "not-done" :: ignored → ignored = []) →
    (∀ form ∈ items, Tidy form) →
    Tidy (.list items)

variable {form : Form} {forms items : List Form} {rules : Rules} {procedures : List String}

/-- The items of a tidy list are tidy. -/
lemma Tidy.item (tidy : (Form.list items).Tidy) : ∀ form ∈ items, form.Tidy := by
  cases tidy with
  | atom other => exact absurd rfl (other items)
  | list _ each => exact each

/-- Nothing stands behind the word in a tidy form. -/
lemma Tidy.notDone {ignored : List Form}
    (tidy : (Form.list (.symbol "not-done" :: ignored)).Tidy) : ignored = [] := by
  cases tidy with
  | atom other => exact absurd rfl (other _)
  | list first _ => exact first ignored rfl

/-- A name is tidy. -/
lemma tidy_of_name? {name : String} (is : form.name? = some name) : form.Tidy := by
  cases form with
  | list items => cases is
  | _ => exact .atom fun _ same => Form.noConfusion same

/-- A list is tidy if it begins with another word and what stands behind it is tidy. -/
lemma tidy_cons {word : String} (other : word ≠ "not-done") (each : ∀ form ∈ items, form.Tidy) :
    (Form.list (.symbol word :: items)).Tidy := by
  refine .list ?_ ?_
  · rintro ignored same
    cases same
    exact absurd rfl other
  · intro form mem
    obtain rfl | mem := List.mem_cons.1 mem
    · exact tidy_of_name? rfl
    · exact each form mem

/-! ## Conditions -/

/-- A condition by the documented rules is tidy. -/
lemma IsCondition.tidy {condition : Condition} (is : form.IsCondition .documented condition) :
    form.Tidy := by
  induction form generalizing condition with
  | symbol name => exact tidy_of_name? rfl
  | text value => exact tidy_of_name? rfl
  | integer value => exact .atom fun _ => Form.noConfusion
  | boolean value => exact .atom fun _ => Form.noConfusion
  | list items ih =>
    cases is with
    | path mem isBlock =>
      have other : ∀ entry ∈ pathWords, entry.1 ≠ "not-done" := by decide
      exact tidy_cons (other _ mem) (List.forall_mem_singleton.2 (tidy_of_name? isBlock.1))
    | notDone none =>
      cases none rfl
      refine .list ?_ (List.forall_mem_singleton.2 (tidy_of_name? rfl))
      rintro ignored same
      cases same
      rfl
    | negation is =>
      refine tidy_cons (by decide) (List.forall_mem_singleton.2 (ih _ ?_ is))
      exact .tail (.item List.mem_cons_self)
    | all all =>
      refine tidy_cons (by decide) (forall_mem_of_forall₂ ?_ all)
      exact fun form mem _ => ih form (.tail (.item mem))
    | any all =>
      refine tidy_cons (by decide) (forall_mem_of_forall₂ ?_ all)
      exact fun form mem _ => ih form (.tail (.item mem))

/-- A tidy condition is one by the documented rules. -/
lemma IsCondition.documented {condition : Condition} (is : form.IsCondition rules condition)
    (tidy : form.Tidy) : form.IsCondition .documented condition := by
  induction form generalizing condition with
  | symbol name => cases is
  | text value => cases is
  | integer value => cases is
  | boolean value =>
    cases is
    exact .literal
  | list items ih =>
    have all : ∀ {word forms results}, items = .symbol word :: forms →
        List.Forall₂ (IsCondition rules) forms results →
        List.Forall₂ (IsCondition .documented) forms results := by
      rintro word forms results rfl all
      refine forall₂_of_mem (fun form mem _ is => ?_) all
      exact ih form (.tail (.item mem)) is (tidy.item form (.tail _ mem))
    cases is with
    | path mem isBlock => exact .path mem isBlock
    | notDone => exact .notDone fun _ => tidy.notDone
    | negation is =>
      cases all rfl (.cons is .nil) with
      | cons is _ => exact .negation is
    | all are => exact .all (all rfl are)
    | any are => exact .any (all rfl are)

/-! ## Statements -/

/-- Arms are tidy if the statements in them are. -/
lemma IsArms.tidy {arms : List Arm} {otherwise : Option (List Statement)}
    (each : ∀ form, Within form forms → ∀ {statement},
      IsStatement .documented procedures form statement → form.Tidy)
    (are : IsArms .documented procedures forms arms otherwise) : ∀ form ∈ forms, form.Tidy := by
  induction forms generalizing arms otherwise with
  | nil => exact fun _ mem => absurd mem List.not_mem_nil
  | cons form forms ih =>
    cases are with
    | otherwise body =>
      refine List.forall_mem_singleton.2 (tidy_cons (by decide) (forall_mem_of_forall₂ ?_ body))
      exact fun form mem _ => each form (.deeper List.mem_cons_self (.item (.tail _ mem)))
    | when is body rest =>
      refine List.forall_mem_cons.2 ⟨tidy_cons (by decide) (List.forall_mem_cons.2 ⟨is.tidy, ?_⟩),
        ih (fun form within => each form within.tail) rest⟩
      refine forall_mem_of_forall₂ (fun form mem _ => each form ?_) body
      exact .deeper List.mem_cons_self (.item (.tail _ (.tail _ mem)))

/-- A statement by the documented rules is tidy. -/
lemma IsStatement.tidy {statement : Statement}
    (is : IsStatement .documented procedures form statement) : form.Tidy := by
  induction form generalizing statement with
  | symbol name => cases is
  | text value => cases is
  | integer value => cases is
  | boolean value => cases is
  | list items ih =>
    have all : ∀ {forms body}, (∀ form ∈ forms, form ∈ items) →
        List.Forall₂ (IsStatement .documented procedures) forms body →
        ∀ form ∈ forms, form.Tidy := fun subset =>
      forall_mem_of_forall₂ fun form mem _ => ih form (.item (subset form mem))
    cases is with
    | command mem isBlock =>
      have other : ∀ entry ∈ commandWords, entry.1 ≠ "not-done" := by decide
      exact tidy_cons (other _ mem) (List.forall_mem_singleton.2 (tidy_of_name? isBlock.1))
    | turn isBearing isBlock =>
      obtain ⟨text, isName, -⟩ := isBearing
      exact tidy_cons (by decide) (List.forall_mem_cons.2
        ⟨tidy_of_name? isName, List.forall_mem_singleton.2 (tidy_of_name? isBlock.1)⟩)
    | loop body =>
      exact tidy_cons (by decide) (List.forall_mem_cons.2 ⟨.atom fun _ => Form.noConfusion,
        all (fun form mem => .tail _ (.tail _ mem)) body⟩)
    | whileHolds is body =>
      exact tidy_cons (by decide) (List.forall_mem_cons.2
        ⟨is.tidy, all (fun form mem => .tail _ (.tail _ mem)) body⟩)
    | untilHolds is body =>
      exact tidy_cons (by decide) (List.forall_mem_cons.2
        ⟨is.tidy, all (fun form mem => .tail _ (.tail _ mem)) body⟩)
    | forever body => exact tidy_cons (by decide) (all (fun form mem => .tail _ mem) body)
    | single is body =>
      exact tidy_cons (by decide) (List.forall_mem_cons.2
        ⟨is.tidy, all (fun form mem => .tail _ (.tail _ mem)) body⟩)
    | branch arms =>
      exact tidy_cons (by decide) (arms.tidy fun form within => ih form within.tail)
    | call isName _ =>
      exact tidy_cons (by decide) (List.forall_mem_singleton.2 (tidy_of_name? isName))

/-- Tidy arms are arms by the documented rules if the statements in them are. -/
lemma IsArms.documented {arms : List Arm} {otherwise : Option (List Statement)}
    (each : ∀ form, Within form forms → ∀ {statement}, IsStatement rules procedures form statement →
      form.Tidy → IsStatement .documented procedures form statement)
    (are : IsArms rules procedures forms arms otherwise) (tidy : ∀ form ∈ forms, form.Tidy) :
    IsArms .documented procedures forms arms otherwise := by
  induction forms generalizing arms otherwise with
  | nil =>
    cases are
    exact .none
  | cons form forms ih =>
    obtain ⟨first, rest⟩ := List.forall_mem_cons.1 tidy
    cases are with
    | otherwise body =>
      refine .otherwise (forall₂_of_mem (fun form mem _ is => ?_) body)
      exact each form (.deeper List.mem_cons_self (.item (.tail _ mem))) is
        (first.item form (.tail _ mem))
    | @when head _ _ _ _ _ _ is body arms =>
      refine .when (is.documented (first.item head (.tail _ List.mem_cons_self)))
        (forall₂_of_mem (fun form mem _ is => ?_) body)
        (ih (fun form within => each form within.tail) arms rest)
      exact each form (.deeper List.mem_cons_self (.item (.tail _ (.tail _ mem)))) is
        (first.item form (.tail _ (.tail _ mem)))

/-- A tidy statement is one by the documented rules. -/
lemma IsStatement.documented {statement : Statement}
    (is : IsStatement rules procedures form statement) (tidy : form.Tidy) :
    IsStatement .documented procedures form statement := by
  induction form generalizing statement with
  | symbol name => cases is
  | text value => cases is
  | integer value => cases is
  | boolean value => cases is
  | list items ih =>
    have all : ∀ {forms body}, (∀ form ∈ forms, form ∈ items) →
        List.Forall₂ (IsStatement rules procedures) forms body →
        List.Forall₂ (IsStatement .documented procedures) forms body := by
      refine fun subset => forall₂_of_mem fun form mem _ is => ?_
      exact ih form (.item (subset form mem)) is (tidy.item form (subset form mem))
    have second : ∀ {head condition forms}, items = head :: condition :: forms →
        condition.Tidy := by
      rintro head condition forms rfl
      exact tidy.item condition (.tail _ List.mem_cons_self)
    cases is with
    | command mem isBlock => exact .command mem isBlock
    | turn isBearing isBlock => exact .turn isBearing isBlock
    | loop body => exact .loop (all (fun form mem => .tail _ (.tail _ mem)) body)
    | whileHolds is body =>
      exact .whileHolds (is.documented (second rfl))
        (all (fun form mem => .tail _ (.tail _ mem)) body)
    | untilHolds is body =>
      exact .untilHolds (is.documented (second rfl))
        (all (fun form mem => .tail _ (.tail _ mem)) body)
    | forever body => exact .forever (all (fun form mem => .tail _ mem) body)
    | single is body =>
      exact .single (is.documented (second rfl)) (all (fun form mem => .tail _ (.tail _ mem)) body)
    | branch arms =>
      exact .branch (arms.documented (fun form within => ih form within.tail)
        fun form mem => tidy.item form (.tail _ mem))
    | call isName found => exact .call isName found

/-! ## Scripts -/

/-- Nothing stands behind `not-done`, and what stands in the place of the name of a script is one. -/
structure NothingIgnored (forms : List Form) : Prop where
  tidy : ∀ form ∈ forms, form.Tidy
  named : ∀ form ∈ forms, ∀ name items, form.program? = some (name :: items) → name.name?.isSome

/-- Nothing is ignored just if nothing is in the first form and nothing in the others. -/
lemma nothingIgnored_cons_iff : NothingIgnored (form :: forms) ↔
    (form.Tidy ∧ ∀ name items, form.program? = some (name :: items) → name.name?.isSome) ∧
      NothingIgnored forms := by
  constructor
  · rintro ⟨tidy, named⟩
    obtain ⟨tidy, tidy'⟩ := List.forall_mem_cons.1 tidy
    obtain ⟨named, named'⟩ := List.forall_mem_cons.1 named
    exact ⟨⟨tidy, named⟩, tidy', named'⟩
  · rintro ⟨⟨tidy, named⟩, tidy', named'⟩
    exact ⟨List.forall_mem_cons.2 ⟨tidy, tidy'⟩, List.forall_mem_cons.2 ⟨named, named'⟩⟩

/-- In main statements by the documented rules nothing is ignored. -/
lemma IsMain.nothingIgnored {main : List Statement}
    (definitions : ∀ items ∈ forms.filterMap definition?, ∀ form ∈ items, form.Tidy)
    (are : IsMain .documented procedures forms main) : NothingIgnored forms := by
  induction are with
  | nil =>
    exact ⟨fun _ mem => absurd mem List.not_mem_nil, fun _ mem => absurd mem List.not_mem_nil⟩
  | @define items _ _ _ ih =>
    obtain ⟨first, rest⟩ := List.forall_mem_cons.1 definitions
    exact nothingIgnored_cons_iff.2 ⟨⟨tidy_cons (by decide) first, nofun⟩, ih rest⟩
  | program isName body _ ih =>
    obtain ⟨name, is⟩ := Option.isSome_iff_exists.1 (isName rfl)
    have tidy := forall_mem_of_forall₂ (fun _ _ _ is => is.tidy) body
    refine nothingIgnored_cons_iff.2 ⟨⟨tidy_cons (by decide) ?_, ?_⟩, ih definitions⟩
    · exact List.forall_mem_cons.2 ⟨tidy_of_name? is, tidy⟩
    · intro name items same
      cases same
      exact isName rfl
  | statement is _ ih =>
    obtain ⟨define, program⟩ := is.head
    rw [List.filterMap_cons_none define] at definitions
    refine nothingIgnored_cons_iff.2 ⟨⟨is.tidy, ?_⟩, ih definitions⟩
    intro name items same
    cases program.symm.trans same

/-- Main statements in which nothing is ignored are so by the documented rules. -/
lemma IsMain.documented {main : List Statement} (are : IsMain rules procedures forms main)
    (nothing : NothingIgnored forms) : IsMain .documented procedures forms main := by
  induction are with
  | nil => exact .nil
  | define _ ih => exact .define (ih (nothingIgnored_cons_iff.1 nothing).2)
  | program _ body _ ih =>
    obtain ⟨⟨tidy, named⟩, nothing⟩ := nothingIgnored_cons_iff.1 nothing
    refine .program (fun _ => named _ _ rfl) (forall₂_of_mem ?_ body) (ih nothing)
    exact fun form mem _ is => is.documented (tidy.item form (.tail _ (.tail _ mem)))
  | statement is _ ih =>
    obtain ⟨⟨tidy, -⟩, nothing⟩ := nothingIgnored_cons_iff.1 nothing
    exact .statement (is.documented tidy) (ih nothing)

/-- A script by the documented rules is one by the lenient rules in which nothing is ignored. -/
theorem isScript_documented_iff {program : Program} : IsScript .documented forms program ↔
    IsScript .lenient forms program ∧ NothingIgnored forms := by
  constructor
  · intro script
    -- a script by either rules is built, and what is built is a script by the lenient ones
    refine ⟨(Program.ofForms_sound (Program.ofForms_complete script)).2,
      script.main.nothingIgnored (forall_mem_of_forall₂ ?_ script.procedures)⟩
    rintro items - procedure ⟨form, body, rfl, isName, are⟩
    exact List.forall_mem_cons.2
      ⟨tidy_of_name? isName, forall_mem_of_forall₂ (fun _ _ _ is => is.tidy) are⟩
  · rintro ⟨script, nothing⟩
    refine ⟨script.distinct, forall₂_of_mem ?_ script.procedures, script.once,
      script.main.documented nothing⟩
    rintro items mem procedure ⟨form, body, rfl, isName, are⟩
    obtain ⟨definition, mem, define⟩ := List.mem_filterMap.1 mem
    cases definition?_eq_some_iff.1 define
    refine ⟨form, body, rfl, isName, forall₂_of_mem (fun form mem' _ is => ?_) are⟩
    exact is.documented ((nothing.tidy _ mem).item form (.tail _ (.tail _ mem')))

end Form

namespace Program

/-- What is built from forms is the program that they stand for by the lenient rules, and forms are
built into a program if they are a script by these rules. By the documented ones they are a script
if, besides, nothing is ignored. -/
theorem ofForms_iff_isScript (name : String) (forms : List Form) :
    (∀ program, ofForms name forms = .ok program ↔
      program.name = name ∧ Form.IsScript .lenient forms program) ∧
    ((∃ program, ofForms name forms = .ok program) ↔
      ∃ program, Form.IsScript .lenient forms program) ∧
    ∀ program, Form.IsScript .documented forms program ↔
      Form.IsScript .lenient forms program ∧ Form.NothingIgnored forms := by
  refine ⟨fun program => ⟨ofForms_sound, ?_⟩, ⟨?_, ?_⟩, fun _ => Form.isScript_documented_iff⟩
  · rintro ⟨rfl, script⟩
    exact ofForms_complete script
  · rintro ⟨program, builds⟩
    exact ⟨program, (ofForms_sound builds).2⟩
  · -- the grammar says nothing about the name of the program
    rintro ⟨program, script⟩
    have renamed : Form.IsScript .lenient forms { program with name } :=
      ⟨script.distinct, script.procedures, script.once, script.main⟩
    exact ⟨_, ofForms_complete renamed⟩

/-- Two lists of forms that are built into a program but are no script by the documented rules: in
the first one a block stands behind `not-done`, and the second one has a statement in the place of
its name, which becomes no statement of the program. -/
theorem ofForms_ignores :
    let finish : Form := .list [.symbol "finish", .symbol "b"]
    let behind : Form := .list [.symbol "if", .list [.symbol "not-done", .symbol "a"], finish]
    let nameless : Form :=
      .list [.symbol "program", .list [.symbol "move-forward", .symbol "a"], finish]
    ((∃ program, ofForms "anonymous" [behind] = .ok program) ∧
        ¬ ∃ program, Form.IsScript .documented [behind] program) ∧
      (∃ program, ofForms "anonymous" [nameless] = .ok program) ∧
        ¬ ∃ program, Form.IsScript .documented [nameless] program := by
  intro finish behind nameless
  refine ⟨⟨⟨_, rfl⟩, ?_⟩, ⟨_, rfl⟩, ?_⟩
  · rintro ⟨program, script⟩
    obtain ⟨-, nothing⟩ := Form.isScript_documented_iff.1 script
    have tidy := nothing.tidy behind List.mem_cons_self
    cases (tidy.item _ (.tail _ List.mem_cons_self)).notDone
  · rintro ⟨program, script⟩
    obtain ⟨-, nothing⟩ := Form.isScript_documented_iff.1 script
    cases nothing.named nameless List.mem_cons_self _ _ rfl

end Program

end BlockPuzzle
