import Mathlib.Data.List.DropRight

namespace Trimming

variable {α : Type} {p q : α → Bool} {l m : List α}

def HeadNot (p : α → Bool) (l : List α) : Prop := ∀ c ∈ l.head?, p c = false

def LastNot (p : α → Bool) (l : List α) : Prop := ∀ c ∈ l.getLast?, p c = false

instance (p : α → Bool) (l : List α) : Decidable (HeadNot p l) :=
  inferInstanceAs (Decidable (∀ c ∈ l.head?, p c = false))

instance (p : α → Bool) (l : List α) : Decidable (LastNot p l) :=
  inferInstanceAs (Decidable (∀ c ∈ l.getLast?, p c = false))

theorem headNot_nil : HeadNot p [] := by
  intro c first
  cases first

theorem lastNot_nil : LastNot p [] := by
  intro c last
  cases last

theorem headNot_cons {c : α} : HeadNot p (c :: l) ↔ p c = false := by
  simp [HeadNot]

theorem headNot_reverse : HeadNot p l.reverse ↔ LastNot p l := by
  simp [HeadNot, LastNot]

theorem lastNot_concat {c : α} : LastNot p (l ++ [c]) ↔ p c = false := by
  simp [LastNot]

theorem dropWhile_eq_self (kept : HeadNot p l) : l.dropWhile p = l := by
  cases l with
  | nil => rfl
  | cons c l => exact List.dropWhile_cons_of_neg (by simp [headNot_cons.mp kept])

theorem headNot_dropWhile (p : α → Bool) (l : List α) : HeadNot p (l.dropWhile p) := by
  intro c first
  have dropped := List.head?_dropWhile_not p l
  rw [Option.mem_def.mp first] at dropped
  simpa using dropped

theorem rdropWhile_eq_self (kept : LastNot p l) : l.rdropWhile p = l := by
  rw [List.rdropWhile, dropWhile_eq_self (headNot_reverse.mpr kept), List.reverse_reverse]

theorem lastNot_rdropWhile (p : α → Bool) (l : List α) : LastNot p (l.rdropWhile p) := by
  rw [← headNot_reverse, List.rdropWhile, List.reverse_reverse]
  exact headNot_dropWhile p _

theorem HeadNot.of_start (kept : HeadNot p l) (start : m <+: l) : HeadNot p m := by
  cases m with
  | nil => exact headNot_nil
  | cons c m =>
    rcases start with ⟨rest, rfl⟩
    exact headNot_cons.mpr (headNot_cons.mp kept)

theorem HeadNot.append (kept : HeadNot p l) (nonempty : l ≠ []) : HeadNot p (l ++ m) := by
  cases l with
  | nil => exact absurd rfl nonempty
  | cons c l => exact headNot_cons.mpr (headNot_cons.mp kept)

theorem LastNot.append (kept : LastNot p m) (nonempty : m ≠ []) : LastNot p (l ++ m) := by
  rw [← headNot_reverse] at kept ⊢
  rw [List.reverse_append]
  exact kept.append (by simpa using nonempty)

theorem rdropWhile_append_of_all (dropped : ∀ c ∈ m, p c = true) : (l ++ m).rdropWhile p = l.rdropWhile p := by
  rw [List.rdropWhile, List.reverse_append, List.dropWhile_append_of_pos (by simpa using dropped)]
  rfl

theorem rdropWhile_append_of_ne_nil (left : m.rdropWhile p ≠ []) : (l ++ m).rdropWhile p = l ++ m.rdropWhile p := by
  have nonempty : (m.reverse.dropWhile p).isEmpty = false := by simpa [List.rdropWhile] using left
  rw [List.rdropWhile, List.reverse_append, List.dropWhile_append, if_neg (by simp [nonempty]), List.reverse_append,
    List.reverse_reverse, List.rdropWhile]

theorem headNot_iff_of_start (start : m <+: l) (nonempty : m ≠ []) : HeadNot p m ↔ HeadNot p l := by
  rcases start with ⟨rest, rfl⟩
  rw [HeadNot, HeadNot, List.head?_append_of_ne_nil _ nonempty]

theorem lastNot_append (nonempty : m ≠ []) : LastNot p (l ++ m) ↔ LastNot p m := by
  rw [LastNot, LastNot, List.getLast?_append_of_ne_nil _ nonempty]

theorem headNot_rdropWhile (kept : HeadNot p l) : HeadNot p (l.rdropWhile q) :=
  kept.of_start (List.rdropWhile_prefix q l)

theorem trim_eq_self_iff : (l.dropWhile p).rdropWhile p = l ↔ HeadNot p l ∧ LastNot p l := by
  constructor
  · intro same
    rw [← same]
    exact ⟨headNot_rdropWhile (headNot_dropWhile p l), lastNot_rdropWhile p _⟩
  · intro kept
    rw [dropWhile_eq_self kept.1, rdropWhile_eq_self kept.2]

theorem trim_trim : (((l.dropWhile p).rdropWhile p).dropWhile p).rdropWhile p = (l.dropWhile p).rdropWhile p :=
  trim_eq_self_iff.mpr ⟨headNot_rdropWhile (headNot_dropWhile p l), lastNot_rdropWhile p _⟩

section Map

variable {f : α → α}

theorem dropWhile_map (same : ∀ c, p (f c) = p c) (l : List α) : (l.map f).dropWhile p = (l.dropWhile p).map f := by
  induction l with
  | nil => rfl
  | cons c l ih =>
    rw [List.map_cons, List.dropWhile_cons, List.dropWhile_cons, same c]
    split
    · exact ih
    · rfl

theorem rdropWhile_map (same : ∀ c, p (f c) = p c) (l : List α) :
    (l.map f).rdropWhile p = (l.rdropWhile p).map f := by
  rw [List.rdropWhile, ← List.map_reverse, dropWhile_map same, ← List.map_reverse]
  rfl

theorem trim_map (same : ∀ c, p (f c) = p c) (l : List α) :
    ((l.map f).dropWhile p).rdropWhile p = ((l.dropWhile p).rdropWhile p).map f := by
  rw [dropWhile_map same, rdropWhile_map same]

end Map

end Trimming
