import BlockPuzzle.Program.Compile
import BlockPuzzle.Proofs.Program.Printing

/-!
# The calls of a script

A call names a procedure, and what is built from it holds the place of that procedure.
`Form.calledNames` reads the names off the forms; the procedures at the places that a program calls
have just these names, in the same order: `Program.calls_of_compile`.
-/

namespace BlockPuzzle

namespace Form

/-- The heads of lists that hold nothing but statements, or arms. -/
def plainWords : List String :=
  ["forever", "branch", "otherwise"]

/-- The heads of lists in which statements stand behind one other item. -/
def guardedWords : List String :=
  ["repeat", "while", "until", "if", "when", "program"]

mutual

/-- The names that are given by the calls in a form, in order of appearance. -/
def calledNames : Form → List String
  | list (symbol head :: items) =>
    if head = "call" then items.filterMap name?
    else if head ∈ plainWords then calledNamesIn items
    else if head ∈ guardedWords then calledNamesBehind items
    else []
  | _ => []

def calledNamesIn : List Form → List String
  | [] => []
  | form :: forms => form.calledNames ++ calledNamesIn forms

def calledNamesBehind : List Form → List String
  | [] => []
  | _ :: forms => calledNamesIn forms

end

/-- The names that are given by the calls of a script: those of the main statements, and then those
of the procedures. -/
def calledNamesOf (forms : List Form) : List String :=
  calledNamesIn (forms.filter fun form => form.definition?.isNone) ++
    (forms.filterMap definition?).flatMap calledNamesBehind

/-- At the places that are called stand the procedures with the names given. -/
def Names (procedures : List String) (calls : List Nat) (names : List String) : Prop :=
  calls.map (procedures[·]?) = names.map some

variable {rules : Rules} {procedures : List String}

/-- Two lists of calls that are named one by one are so together. -/
lemma Names.append {calls calls' : List Nat} {names names' : List String}
    (first : Names procedures calls names) (second : Names procedures calls' names') :
    Names procedures (calls ++ calls') (names ++ names') := by
  unfold Names at *
  rw [List.map_append, List.map_append, first, second]

/-- The calls of statements are named one by one. -/
lemma names_body {forms : List Form} {body : List Statement}
    (each : List.Forall₂ (fun form statement =>
      Names procedures statement.calls form.calledNames) forms body) :
    Names procedures (bodyCalls body) (calledNamesIn forms) := by
  induction each with
  | nil => rfl
  | cons first _ ih => exact first.append ih

/-- The calls of a chain of arms are named if those of each statement inside are. -/
lemma names_arms {forms : List Form} {arms : List Arm} {otherwise : Option (List Statement)}
    (each : ∀ form, Within form forms → ∀ {statement}, IsStatement rules procedures form statement →
      Names procedures statement.calls form.calledNames)
    (are : IsArms rules procedures forms arms otherwise) :
    Names procedures (armsCalls arms ++ otherwiseCalls otherwise) (calledNamesIn forms) := by
  induction forms generalizing arms otherwise with
  | nil =>
    cases are
    rfl
  | cons form forms ih =>
    have all : ∀ {inner items body}, form = .list inner → (∀ item ∈ items, item ∈ inner) →
        List.Forall₂ (IsStatement rules procedures) items body →
        Names procedures (bodyCalls body) (calledNamesIn items) := by
      intro inner items body same subset are
      refine names_body (forall₂_of_mem (fun item mem _ => each item ?_) are)
      exact .deeper (same ▸ List.mem_cons_self) (.item (subset item mem))
    cases are with
    | otherwise body =>
      have names := all rfl (fun item mem => .tail _ mem) body
      simpa [armsCalls, otherwiseCalls, calledNamesIn, calledNames, plainWords] using names
    | when _ body rest =>
      have names := all rfl (fun item mem => .tail _ (.tail _ mem)) body
      have others := ih (fun form within => each form within.tail) rest
      have both := names.append others
      simpa [armsCalls, Arm.calls, calledNamesIn, calledNames, calledNamesBehind, plainWords,
        guardedWords] using both

/-- A statement calls the procedures that its form names. -/
lemma names_statement {form : Form} {statement : Statement}
    (is : IsStatement rules procedures form statement) :
    Names procedures statement.calls form.calledNames := by
  -- the forms inside are statements of their own, and the judgment is taken apart form by form
  induction form generalizing statement with
  | symbol name => cases is
  | text value => cases is
  | integer value => cases is
  | boolean value => cases is
  | list items ih =>
    have all : ∀ {forms body}, (∀ form ∈ forms, form ∈ items) →
        List.Forall₂ (IsStatement rules procedures) forms body →
        Names procedures (bodyCalls body) (calledNamesIn forms) := fun subset are =>
      names_body (forall₂_of_mem (fun form mem _ => ih form (.item (subset form mem))) are)
    cases is with
    | command mem =>
      simp only [commandWords, List.mem_cons, Prod.mk.injEq, List.not_mem_nil, or_false] at mem
      obtain ⟨rfl, rfl⟩ | ⟨rfl, rfl⟩ | ⟨rfl, rfl⟩ | ⟨rfl, rfl⟩ | ⟨rfl, rfl⟩ := mem
      all_goals rfl
    | turn => rfl
    | loop are => exact all (fun form mem => .tail _ (.tail _ mem)) are
    | whileHolds _ are => exact all (fun form mem => .tail _ (.tail _ mem)) are
    | untilHolds _ are => exact all (fun form mem => .tail _ (.tail _ mem)) are
    | forever are => exact all (fun form mem => .tail _ mem) are
    | single _ are =>
      have names := all (fun form mem => .tail _ (.tail _ mem)) are
      simpa [Statement.calls, armsCalls, Arm.calls, otherwiseCalls, calledNames, calledNamesBehind,
        plainWords, guardedWords] using names
    | branch are => exact names_arms (fun form within => ih form within.tail) are
    | call isName found => simp [Names, Statement.calls, calledNames, isName, found]

/-- The main part calls the procedures that are named outside of the definitions. -/
lemma names_main {forms : List Form} {main : List Statement}
    (are : IsMain rules procedures forms main) :
    Names procedures (bodyCalls main)
      (calledNamesIn (forms.filter fun form => form.definition?.isNone)) := by
  have bodies : ∀ body others, bodyCalls (body ++ others) = bodyCalls body ++ bodyCalls others := by
    intro body others
    induction body with
    | nil => rfl
    | cons statement body ih => simp [bodyCalls, ih]
  induction are with
  | nil => rfl
  | define _ ih => exact ih
  | @program name items forms body main _ are _ ih =>
    rw [List.filter_cons_of_pos rfl, bodies]
    exact (names_body (are.imp fun _ _ is => names_statement is)).append ih
  | statement is _ ih =>
    rw [List.filter_cons_of_pos (by rw [is.head.1]; rfl)]
    exact (names_statement is).append ih

/-- The calls of a script are those that its forms name. -/
theorem IsScript.names {forms : List Form} {program : Program}
    (script : IsScript rules forms program) :
    Names (program.procedures.map Procedure.name) program.calls (calledNamesOf forms) := by
  refine (names_main script.main).append ?_
  have each := script.procedures
  generalize program.procedures.map Procedure.name = names at each ⊢
  generalize forms.filterMap definition? = definitions at each ⊢
  generalize program.procedures = defined at each ⊢
  induction each with
  | nil => rfl
  | cons is _ ih =>
    obtain ⟨form, forms, rfl, -, are⟩ := is
    exact (names_body (are.imp fun _ _ is => names_statement is)).append ih

end Form

namespace Program

/-- A script that is read as some forms compiles to what is built from them. -/
lemma compile_iff {script : String} {forms : List Form} (reads : Form.readAll script = .ok forms)
    {program : Program} :
    compile script = .ok program ↔ ofForms (scriptName forms) forms = .ok program := by
  unfold compile build
  rw [reads]
  simp only
  cases ofForms (scriptName forms) forms with
  | ok built => simp only [Except.mapError, Except.ok.injEq]
  | error e => exact ⟨nofun, nofun⟩

/-- At the places that a compiled program calls stand the procedures that the script names, and no
two procedures have one name. -/
theorem calls_of_compile {source : String} {program : Program}
    (compiles : compile source = .ok program) :
    ∃ forms, Form.readAll source = .ok forms ∧
      program.calls.map (fun index => program.procedures[index]?.map Procedure.name) =
        (Form.calledNamesOf forms).map some ∧
      (program.procedures.map Procedure.name).Nodup := by
  cases reads : Form.readAll source with
  | error e =>
    unfold compile at compiles
    rw [reads] at compiles
    cases compiles
  | ok forms =>
    obtain ⟨-, script⟩ := ofForms_sound ((compile_iff reads).1 compiles)
    have names := script.names
    simp only [Form.Names, List.getElem?_map] at names
    exact ⟨forms, rfl, names, script.distinct⟩

/-- A compiled program calls procedures that exist. -/
lemma lt_of_compile {source : String} {program : Program}
    (compiles : compile source = .ok program) :
    ∀ index ∈ program.calls, index < program.procedures.length := by
  obtain ⟨forms, -, names, -⟩ := calls_of_compile compiles
  intro index mem
  have found := names ▸ List.mem_map_of_mem mem
  obtain ⟨name, -, found⟩ := List.mem_map.1 found
  obtain ⟨procedure, at_index, -⟩ := Option.map_eq_some_iff.1 found.symm
  exact (List.getElem?_eq_some_iff.1 at_index).1

end Program

end BlockPuzzle
