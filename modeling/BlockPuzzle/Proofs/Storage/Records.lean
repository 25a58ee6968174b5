import Mathlib.Data.List.Nodup
import Mathlib.Data.List.Perm.Basic
import BlockPuzzle.Storage.Codec

/-!
# Records

An object gives the fields of a record if it has those that are there, in any order, and other ones only
under names that the record does not know. It is read as that record: `JsonValue.record?_of_gives`.
-/

namespace BlockPuzzle

/-- Where nothing is there twice, nothing is left out. -/
lemma eraseDups_of_nodup {α : Type} [BEq α] [LawfulBEq α] {items : List α} (distinct : items.Nodup) :
    items.eraseDups = items := by
  induction items with
  | nil => rfl
  | cons item items ih =>
    obtain ⟨new, distinct⟩ := List.nodup_cons.1 distinct
    have others : items.filter (fun other => !other == item) = items := by
      refine List.filter_eq_self.2 fun other mem => ?_
      simp only [Bool.not_eq_true', beq_eq_false_iff_ne]
      rintro rfl
      exact new mem
    rw [List.eraseDups_cons, others, ih distinct]

namespace JsonValue

variable {fields : List (String × JsonValue)} {table : List (String × Option JsonValue)} {name : String}
  {value : JsonValue}

/-- The fields of a record that are there. -/
def present (table : List (String × Option JsonValue)) : List (String × JsonValue) :=
  table.filterMap fun (name, value) => value.map (name, ·)

/-- An object has the fields of a record that are there, in any order, and maybe other ones that the
record does not know. -/
def Gives (value : JsonValue) (table : List (String × Option JsonValue)) : Prop :=
  ∃ fields others, value = ofFields fields ∧ fields.Perm (present table ++ others) ∧
    ∀ other ∈ others, other.1 ∉ table.map Prod.fst

/-- A field is there just if the table has a value for it. -/
lemma mem_present : (name, value) ∈ present table ↔ (name, some value) ∈ table := by
  unfold present
  simp only [List.mem_filterMap, Prod.exists, Option.map_eq_some_iff, Prod.mk.injEq]
  constructor
  · rintro ⟨_, _, mem, _, rfl, rfl, rfl⟩
    exact mem
  · intro mem
    exact ⟨name, some value, mem, value, rfl, rfl, rfl⟩

/-- The fields that are there keep their order. -/
lemma sublist_present (table : List (String × Option JsonValue)) :
    ((present table).map Prod.fst).Sublist (table.map Prod.fst) := by
  unfold present
  induction table with
  | nil => exact .slnil
  | cons field table ih =>
    obtain ⟨name, value⟩ := field
    cases value with
    | none => exact ih.cons _
    | some value => exact ih.cons_cons _

/-- Among distinct fields each is found under its name. -/
lemma lookup_of_mem (distinct : (fields.map Prod.fst).Nodup) (mem : (name, value) ∈ fields) :
    fields.lookup name = some value := by
  induction fields with
  | nil => cases mem
  | cons field fields ih =>
    obtain ⟨first, content⟩ := field
    obtain ⟨new, distinct⟩ := List.nodup_cons.1 distinct
    rcases List.mem_cons.1 mem with same | later
    · cases same
      exact List.lookup_cons_self
    · have ne : (name == first) = false := by
        rw [beq_eq_false_iff_ne]
        rintro rfl
        exact new (List.mem_map.2 ⟨_, later, rfl⟩)
      rw [List.lookup_cons, ne]
      exact ih distinct later

/-- A field that is not there is not found. -/
lemma lookup_of_not_mem (absent : ∀ value, (name, value) ∉ fields) : fields.lookup name = none := by
  induction fields with
  | nil => rfl
  | cons field fields ih =>
    obtain ⟨first, content⟩ := field
    have ne : (name == first) = false := by
      rw [beq_eq_false_iff_ne]
      rintro rfl
      exact absent content List.mem_cons_self
    rw [List.lookup_cons, ne]
    exact ih fun value mem => absent value (List.mem_cons_of_mem _ mem)

/-- An object is read as a record by the fields that the record knows, unless one is there twice. -/
lemma record?_ofFields (names : List String) (fields : List (String × JsonValue)) :
    (ofFields fields).record? names =
      if ((fields.filter fun field => names.contains field.1).map Prod.fst).eraseDups.length =
          (fields.filter fun field => names.contains field.1).length then
        some (names.map fun name => (fields.filter fun field => names.contains field.1).lookup name)
      else none := by
  have texts : (fields.map fun field => (some field.1, field.2)).mapM
      (fun field => field.1.map (·, field.2)) = some fields := by
    induction fields with
    | nil => rfl
    | cons field fields ih => rw [List.map_cons, List.mapM_cons, ih]; rfl
  exact congrArg (Option.bind · _) texts

/-- What an object gives is read from it, each field under its name. -/
lemma record?_of_gives {names : List String} (are : table.map Prod.fst = names)
    (distinct : names.Nodup) (gives : value.Gives table) :
    value.record? names = some (table.map Prod.snd) := by
  subst are
  obtain ⟨fields, others, rfl, perm, unknown⟩ := gives
  have known : (fields.filter fun field => (table.map Prod.fst).contains field.1).Perm
      (present table) := by
    have ours : (present table).filter (fun field => (table.map Prod.fst).contains field.1) =
        present table := by
      refine List.filter_eq_self.2 fun field mem => List.contains_iff_mem.2 ?_
      exact (sublist_present table).subset (List.mem_map_of_mem mem)
    have theirs : others.filter (fun field => (table.map Prod.fst).contains field.1) = [] := by
      refine List.filter_eq_nil_iff.2 fun other mem known => ?_
      exact unknown other mem (List.contains_iff_mem.1 known)
    have perm := perm.filter fun field => (table.map Prod.fst).contains field.1
    rwa [List.filter_append, ours, theirs, List.append_nil] at perm
  rw [record?_ofFields]
  generalize fields.filter (fun field => (table.map Prod.fst).contains field.1) = found at known ⊢
  have once : (found.map Prod.fst).Nodup :=
    (known.map Prod.fst).nodup_iff.2 (distinct.sublist (sublist_present table))
  rw [eraseDups_of_nodup once, if_pos (List.length_map _), List.map_map]
  refine congrArg some (List.map_congr_left fun field mem => ?_)
  obtain ⟨name, value⟩ := field
  cases value with
  | some value => exact lookup_of_mem once (known.mem_iff.2 (mem_present.2 mem))
  | none =>
    refine lookup_of_not_mem fun value there => ?_
    have there := mem_present.1 (known.mem_iff.1 there)
    have same := List.inj_on_of_nodup_map distinct mem there rfl
    cases same

end JsonValue

end BlockPuzzle
