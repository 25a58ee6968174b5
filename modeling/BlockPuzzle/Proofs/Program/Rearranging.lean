import BlockPuzzle.Proofs.Program.Building
import BlockPuzzle.Proofs.Program.Renumbering
import Mathlib.Data.List.Perm.Basic

/-!
# Rearranging definitions

The definitions of a script may stand anywhere and in any order. Forms that differ in nothing else
(`Form.Rearranged`) are scripts together, and the programs that they stand for differ only in the
places of their procedures: `Form.Rearranged.isScript`.
-/

namespace BlockPuzzle

namespace Form

/-- The same forms, where those that define no procedure have kept their order. -/
structure Rearranged (forms forms' : List Form) : Prop where
  perm : forms.Perm forms'
  others : forms.filter (·.definition?.isNone) = forms'.filter (·.definition?.isNone)

variable {rules : Rules} {names names' : List String} {place : Nat → Nat}

/-- A name that stands somewhere in the first list stands at the new place in the second one. -/
def Finds (place : Nat → Nat) (names names' : List String) : Prop :=
  ∀ index name, names[index]? = some name → names'[place index]? = some name

/-! ## Statements -/

/-- Statements are renumbered one by one. -/
lemma forall₂_renumbered {forms : List Form} {body : List Statement}
    (each : ∀ form ∈ forms, ∀ {statement}, IsStatement rules names form statement →
      IsStatement rules names' form (statement.renumbered place))
    (are : List.Forall₂ (IsStatement rules names) forms body) :
    List.Forall₂ (IsStatement rules names') forms (bodyRenumbered place body) := by
  rw [bodyRenumbered_eq_map, List.forall₂_map_right_iff]
  exact forall₂_of_mem each are

/-- A chain of arms is read with the new numbers if the statements inside are. -/
lemma IsArms.renumbered {forms : List Form} {arms : List Arm}
    {otherwise : Option (List Statement)}
    (each : ∀ form, Within form forms → ∀ {statement}, IsStatement rules names form statement →
      IsStatement rules names' form (statement.renumbered place))
    (are : IsArms rules names forms arms otherwise) :
    IsArms rules names' forms (armsRenumbered place arms) (otherwiseRenumbered place otherwise) := by
  induction forms generalizing arms otherwise with
  | nil =>
    cases are
    exact .none
  | cons form forms ih =>
    have all : ∀ {inner items body}, form = .list inner → (∀ item ∈ items, item ∈ inner) →
        List.Forall₂ (IsStatement rules names) items body →
        List.Forall₂ (IsStatement rules names') items (bodyRenumbered place body) := by
      intro inner items body same subset are
      apply forall₂_renumbered _ are
      intro item mem
      apply each item
      exact .deeper (same ▸ List.mem_cons_self) (.item (subset item mem))
    cases are with
    | otherwise body => exact .otherwise (all rfl (fun item mem => .tail _ mem) body)
    | when is body rest =>
      have body := all rfl (fun item mem => .tail _ (.tail _ mem)) body
      exact .when is body (ih (fun form within => each form within.tail) rest)

/-- A form stands for the same statement, with its calls renumbered. -/
theorem IsStatement.renumbered (finds : Finds place names names') {form : Form}
    {statement : Statement} (is : IsStatement rules names form statement) :
    IsStatement rules names' form (statement.renumbered place) := by
  induction form generalizing statement with
  | symbol name => cases is
  | text value => cases is
  | integer value => cases is
  | boolean value => cases is
  | list items ih =>
    have all : ∀ {forms body}, (∀ form ∈ forms, form ∈ items) →
        List.Forall₂ (IsStatement rules names) forms body →
        List.Forall₂ (IsStatement rules names') forms (bodyRenumbered place body) := by
      intro forms body subset are
      apply forall₂_renumbered _ are
      intro form mem
      exact ih form (.item (subset form mem))
    cases is with
    | command mem isBlock => exact .command mem isBlock
    | turn isBearing isBlock => exact .turn isBearing isBlock
    | loop are => exact .loop (all (fun form mem => .tail _ (.tail _ mem)) are)
    | whileHolds is are => exact .whileHolds is (all (fun form mem => .tail _ (.tail _ mem)) are)
    | untilHolds is are => exact .untilHolds is (all (fun form mem => .tail _ (.tail _ mem)) are)
    | forever are => exact .forever (all (fun form mem => .tail _ mem) are)
    | single is are => exact .single is (all (fun form mem => .tail _ (.tail _ mem)) are)
    | branch are => exact .branch (are.renumbered fun form within => ih form within.tail)
    | call isName found => exact .call isName (finds _ _ found)

/-! ## Top level -/

/-- Definitions are no main statements. -/
lemma isMain_filter_iff {forms : List Form} {main : List Statement} :
    IsMain rules names (forms.filter (·.definition?.isNone)) main ↔
      IsMain rules names forms main := by
  constructor
  · intro are
    induction forms generalizing main with
    | nil => exact are
    | cons form forms ih =>
      cases define : form.definition? with
      | some items =>
        rw [List.filter_cons_of_neg (by simp [define])] at are
        cases definition?_eq_some_iff.1 define
        exact .define (ih are)
      | none =>
        rw [List.filter_cons_of_pos (by simp [define])] at are
        cases are with
        | define => cases define
        | program isName body rest => exact .program isName body (ih rest)
        | statement is rest => exact .statement is (ih rest)
  · intro are
    induction are with
    | nil => exact .nil
    | define _ ih =>
      rw [List.filter_cons_of_neg (by simp [definition?])]
      exact ih
    | program isName body _ ih =>
      rw [List.filter_cons_of_pos (by simp [definition?])]
      exact .program isName body ih
    | statement is _ ih =>
      rw [List.filter_cons_of_pos (by simp [is.head.1])]
      exact .statement is ih

/-- So is the main part. -/
lemma IsMain.renumbered (finds : Finds place names names') {forms : List Form}
    {main : List Statement} (are : IsMain rules names forms main) :
    IsMain rules names' forms (bodyRenumbered place main) := by
  induction are with
  | nil => exact .nil
  | define _ ih => exact .define ih
  | program isName body _ ih =>
    rw [bodyRenumbered_eq_map, List.map_append, ← bodyRenumbered_eq_map, ← bodyRenumbered_eq_map]
    exact .program isName (forall₂_renumbered (fun _ _ _ is => is.renumbered finds) body) ih
  | statement is _ ih => exact .statement (is.renumbered finds) ih

/-! ## Places -/

/-- Where a procedure has come to, by its name. -/
def newPlace (names names' : List String) (index : Nat) : Nat :=
  match names[index]? with
  | some name => names'.idxOf name
  | none => index

/-- The new place of a procedure is where its name has gone. -/
lemma finds_newPlace (perm : names.Perm names') : Finds (newPlace names names') names names' := by
  intro index name found
  unfold newPlace
  rw [found]
  apply List.getElem?_idxOf
  exact perm.mem_iff.1 (List.mem_of_getElem? found)

/-- Among procedures with distinct names each one is found again by its name. -/
lemma placed_newPlace {procedures procedures' : List Procedure} (perm : procedures.Perm procedures')
    (distinct : (procedures'.map Procedure.name).Nodup) :
    let place := newPlace (procedures.map Procedure.name) (procedures'.map Procedure.name)
    Procedures.Placed place procedures (procedures'.map (Procedure.renumbered place)) := by
  intro place
  constructor
  · intro index procedure found
    have named : (procedures.map Procedure.name)[index]? = some procedure.name := by
      rw [List.getElem?_map, found]
      rfl
    have there := finds_newPlace (perm.map Procedure.name) index procedure.name named
    -- what stands there has the same name, so it is the same procedure
    obtain ⟨other, found', same⟩ := Option.map_eq_some_iff.1 (List.getElem?_map ▸ there)
    have mem := perm.mem_iff.1 (List.mem_of_getElem? found)
    have equal := List.inj_on_of_nodup_map distinct (List.mem_of_getElem? found') mem same
    rw [List.getElem?_map, found', equal]
    rfl
  · intro index missing
    have named : (procedures.map Procedure.name)[index]? = none := by
      rw [List.getElem?_map, missing]
      rfl
    refine ⟨by simp only [place, newPlace, named], ?_⟩
    rw [List.getElem?_eq_none_iff] at missing ⊢
    rwa [List.length_map, ← perm.length_eq]

/-- Rearranged forms are a script of the same program, but for the places of its procedures. -/
theorem Rearranged.isScript {forms forms' : List Form} (rearranged : Rearranged forms forms')
    {program : Program} (script : IsScript rules forms program) :
    ∃ place program', program.Renumbers place program' ∧ IsScript rules forms' program' := by
  obtain ⟨procedures, definitions, perm⟩ :=
    List.perm_comp_forall₂ (rearranged.perm.symm.filterMap definition?) script.procedures
  have names := perm.map Procedure.name
  have distinct : (procedures.map Procedure.name).Nodup := names.nodup_iff.2 script.distinct
  let place := newPlace (program.procedures.map Procedure.name) (procedures.map Procedure.name)
  have finds := finds_newPlace names.symm
  have same : (procedures.map (Procedure.renumbered place)).map Procedure.name =
      procedures.map Procedure.name := by
    rw [List.map_map]
    rfl
  refine ⟨place, ⟨program.name, bodyRenumbered place program.main,
    procedures.map (Procedure.renumbered place)⟩, ?_, ?_⟩
  · exact ⟨rfl, rfl, placed_newPlace perm.symm distinct, perm.map _⟩
  · constructor
    · rw [same]
      exact distinct
    · rw [same, List.forall₂_map_right_iff]
      apply definitions.imp
      rintro items procedure ⟨form, forms, rfl, isName, are⟩
      exact ⟨form, forms, rfl, isName,
        forall₂_renumbered (fun _ _ _ is => is.renumbered finds) are⟩
    · rw [← (rearranged.perm.filterMap program?).length_eq]
      exact script.once
    · rw [same, ← isMain_filter_iff, ← rearranged.others, isMain_filter_iff]
      exact script.main.renumbered finds

/-- Rearranging can be undone. -/
lemma Rearranged.symm {forms forms' : List Form} (rearranged : Rearranged forms forms') :
    Rearranged forms' forms :=
  ⟨rearranged.perm.symm, rearranged.others.symm⟩

/-- Rearranging definitions leaves a script its name. -/
lemma Rearranged.scriptName {forms forms' : List Form} (rearranged : Rearranged forms forms') :
    BlockPuzzle.scriptName forms' = BlockPuzzle.scriptName forms := by
  have unnamed : ∀ forms : List Form, forms.findSome? scriptName? =
      (forms.filter (·.definition?.isNone)).findSome? scriptName? := by
    intro forms
    induction forms with
    | nil => rfl
    | cons form forms ih =>
      cases define : form.definition? with
      | some items =>
        rw [List.filter_cons_of_neg (by simp [define]), ← ih]
        cases definition?_eq_some_iff.1 define
        rfl
      | none =>
        rw [List.filter_cons_of_pos (by simp [define]), List.findSome?_cons, List.findSome?_cons, ih]
  unfold BlockPuzzle.scriptName
  rw [unnamed forms', unnamed forms, rearranged.others]

end Form

namespace Program

variable {forms forms' : List Form} {name : String} {program : Program}

/-- What is built from rearranged forms is the same program, but for the places of its procedures. -/
theorem ofForms_rearranged (rearranged : Form.Rearranged forms forms')
    (builds : ofForms name forms = .ok program) :
    ∃ place program', program.Renumbers place program' ∧ ofForms name forms' = .ok program' := by
  obtain ⟨rfl, script⟩ := ofForms_sound builds
  obtain ⟨place, program', renumbers, script'⟩ := rearranged.isScript script
  refine ⟨place, program', renumbers, ?_⟩
  rw [← renumbers.name]
  exact ofForms_complete script'

end Program

end BlockPuzzle
