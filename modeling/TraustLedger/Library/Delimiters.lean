import Mathlib.Algebra.GroupWithZero.Nat
import Mathlib.Data.List.Basic

namespace Delimiters

variable {α : Type} [DecidableEq α] {sep : α}

def Free (sep : α) (fields : List (List α)) : Prop := ∀ field ∈ fields, sep ∉ field

instance (sep : α) (fields : List (List α)) : Decidable (Free sep fields) :=
  inferInstanceAs (Decidable (∀ field ∈ fields, sep ∉ field))

theorem count_intercalate (sep : α) (first : List α) (fields : List (List α)) :
    ([sep].intercalate (first :: fields)).count sep =
      ((first :: fields).map fun field => field.count sep).sum + fields.length := by
  induction fields generalizing first with
  | nil => simp
  | cons second fields ih =>
    rw [List.intercalate_cons_cons, List.count_append, List.count_append, ih]
    simp only [List.count_singleton_self, List.map_cons, List.sum_cons, List.length_cons]
    omega

theorem free_iff_count {fields : List (List α)} :
    Free sep fields ↔ (fields.map fun field => field.count sep).sum = 0 := by
  simp only [Free, List.sum_eq_zero_iff_forall_eq_nat, List.forall_mem_map, List.count_eq_zero]

theorem Free.of_intercalate {left right : List (List α)} (free : Free sep left) (count : left.length = right.length)
    (same : [sep].intercalate left = [sep].intercalate right) : Free sep right := by
  cases left with
  | nil =>
    rw [List.length_nil, eq_comm, List.length_eq_zero_iff] at count
    subst count
    exact free
  | cons first left =>
    cases right with
    | nil => cases count
    | cons second right =>
      have counts := congrArg (List.count sep) same
      rw [count_intercalate, count_intercalate, free_iff_count.mp free] at counts
      simp only [List.length_cons] at count
      exact free_iff_count.mpr (by omega)

theorem intercalate_injective {left right : List (List α)} (free : Free sep left) (others : Free sep right)
    (some_left : left ≠ []) (some_right : right ≠ [])
    (same : [sep].intercalate left = [sep].intercalate right) : left = right := by
  rw [← List.splitOn_intercalate sep free some_left, same, List.splitOn_intercalate sep others some_right]

/-- A join of fields that are free of the separator is the join of no other fields, as many. -/
theorem intercalate_inj {left right : List (List α)} (free : Free sep left) (count : left.length = right.length)
    (same : [sep].intercalate left = [sep].intercalate right) : left = right := by
  cases left with
  | nil => exact (List.length_eq_zero_iff.mp (count.symm.trans List.length_nil)).symm
  | cons first left =>
    have others := free.of_intercalate count same
    refine intercalate_injective free others (List.cons_ne_nil _ _) ?_ same
    rintro rfl
    cases count

theorem splitOn_free (sep : α) (text : List α) : Free sep (text.splitOn sep) := by
  induction text with
  | nil => simp [Free]
  | cons first text ih =>
    rw [List.splitOn_cons_eq_if_modifyHead]
    split_ifs with here
    · exact List.forall_mem_cons.mpr ⟨List.not_mem_nil, ih⟩
    · cases pieces : text.splitOn sep with
      | nil => simp [Free]
      | cons head rest =>
        rw [pieces] at ih
        rw [Free, List.forall_mem_cons] at ih
        have apart : sep ≠ first := fun same => here (by simp [same])
        rw [List.modifyHead_cons, Free, List.forall_mem_cons, List.mem_cons, not_or]
        exact ⟨⟨apart, ih.1⟩, ih.2⟩

end Delimiters
