import Mathlib.Data.List.Forall2
import Mathlib.Data.List.Sort

namespace StableSort

variable {α : Type} {r : α → α → Prop} [DecidableRel r]

theorem orderedInsert_snoc {item last : α} (first : r item last) (sorted : List α) :
    (sorted ++ [last]).orderedInsert r item = sorted.orderedInsert r item ++ [last] := by
  induction sorted with
  | nil => simp [first]
  | cons head rest ih =>
    rw [List.cons_append, List.orderedInsert_cons, List.orderedInsert_cons, ih]
    split <;> rfl

theorem insertionSort_snoc {items : List α} {last : α} (first : ∀ item ∈ items, r item last) :
    (items ++ [last]).insertionSort r = items.insertionSort r ++ [last] := by
  induction items with
  | nil => rfl
  | cons head rest ih =>
    rw [List.forall_mem_cons] at first
    rw [List.cons_append, List.insertionSort_cons, ih first.2, orderedInsert_snoc first.1, List.insertionSort_cons]

theorem orderedInsert_first {item : α} {sorted : List α} (first : ∀ held ∈ sorted, r item held) :
    sorted.orderedInsert r item = item :: sorted := by
  cases sorted with
  | nil => rfl
  | cons head rest => exact List.orderedInsert_cons_of_le r rest (first head List.mem_cons_self)

section Filters

variable [IsTrans α r] (p : α → Bool)

theorem filter_orderedInsert {sorted : List α} (ordered : sorted.Pairwise r) (item : α) :
    (sorted.orderedInsert r item).filter p =
      if p item then (sorted.filter p).orderedInsert r item else sorted.filter p := by
  induction sorted with
  | nil => cases kept : p item <;> simp [kept]
  | cons head rest ih =>
    rw [List.pairwise_cons] at ordered
    rw [List.orderedInsert_cons]
    split
    · next first =>
      have all : ∀ held ∈ head :: rest, r item held := by
        intro held member
        rcases List.mem_cons.mp member with rfl | later
        · exact first
        · exact Trans.trans first (ordered.1 held later)
      rw [List.filter_cons]
      split
      · rw [orderedInsert_first fun held member => all held (List.mem_of_mem_filter member)]
      · rfl
    · next later =>
      rw [List.filter_cons, ih ordered.2, List.filter_cons]
      cases keeps : p head <;> cases kept : p item <;> simp [later]

/-- A stable sort and a filter can change places: what is filtered out does not move what stays. -/
theorem filter_insertionSort [Std.Total r] (items : List α) :
    (items.insertionSort r).filter p = (items.filter p).insertionSort r := by
  induction items with
  | nil => rfl
  | cons item rest ih =>
    rw [List.insertionSort_cons, filter_orderedInsert p (List.pairwise_insertionSort r rest), ih, List.filter_cons]
    cases kept : p item <;> simp

end Filters

theorem insertionSort_eq_of_perm [IsTrans α r] [Std.Total r] {items others : List α} (perm : items.Perm others)
    (apart : ∀ left ∈ items, ∀ right ∈ items, r left right → r right left → left = right) :
    items.insertionSort r = others.insertionSort r := by
  have sorted : (items.insertionSort r).Perm (others.insertionSort r) :=
    ((List.perm_insertionSort r items).trans perm).trans (List.perm_insertionSort r others).symm
  refine List.Perm.eq_of_pairwise ?_ (List.pairwise_insertionSort r items) (List.pairwise_insertionSort r others) sorted
  intro left right first second
  exact apart left ((List.mem_insertionSort r).mp first) right (perm.mem_iff.mpr ((List.mem_insertionSort r).mp second))

section Related

variable {β : Type} {s : β → β → Prop} [DecidableRel s] {R : α → β → Prop}

theorem forall₂_orderedInsert (agree : ∀ a a' b b', R a a' → R b b' → (r a b ↔ s a' b')) {item : α} {other : β}
    (related : R item other) {sorted : List α} {others : List β} (pairs : List.Forall₂ R sorted others) :
    List.Forall₂ R (sorted.orderedInsert r item) (others.orderedInsert s other) := by
  induction pairs with
  | nil => exact .cons related .nil
  | @cons head head' rest rest' first later ih =>
    rw [List.orderedInsert_cons, List.orderedInsert_cons]
    by_cases before : r item head
    · rw [if_pos before, if_pos ((agree _ _ _ _ related first).mp before)]
      exact .cons related (.cons first later)
    · rw [if_neg before, if_neg (mt (agree _ _ _ _ related first).mpr before)]
      exact .cons first ih

theorem forall₂_insertionSort (agree : ∀ a a' b b', R a a' → R b b' → (r a b ↔ s a' b')) {items : List α}
    {others : List β} (pairs : List.Forall₂ R items others) :
    List.Forall₂ R (items.insertionSort r) (others.insertionSort s) := by
  induction pairs with
  | nil => exact .nil
  | cons related _ ih => exact forall₂_orderedInsert agree related ih

theorem forall₂_getLast? {items : List α} {others : List β} (pairs : List.Forall₂ R items others) :
    Option.Rel R items.getLast? others.getLast? := by
  have backwards : List.Forall₂ R items.reverse others.reverse := List.rel_reverse pairs
  rw [← List.head?_reverse, ← List.head?_reverse]
  generalize items.reverse = left at backwards ⊢
  generalize others.reverse = right at backwards ⊢
  cases backwards with
  | nil => exact .none
  | cons related _ => exact .some related

theorem forall₂_any {p : α → Bool} {q : β → Bool} (agree : ∀ a b, R a b → p a = q b) {items : List α}
    {others : List β} (pairs : List.Forall₂ R items others) : items.any p = others.any q := by
  induction pairs with
  | nil => rfl
  | cons related _ ih => rw [List.any_cons, List.any_cons, agree _ _ related, ih]

theorem forall₂_filter {p : α → Bool} {q : β → Bool} (agree : ∀ a b, R a b → p a = q b) {items : List α}
    {others : List β} (pairs : List.Forall₂ R items others) : List.Forall₂ R (items.filter p) (others.filter q) :=
  List.rel_filter (fun a b related => Bool.eq_iff_iff.mp (agree a b related)) pairs

theorem forall₂_map_eq {γ : Type} {f : α → γ} {g : β → γ} (agree : ∀ a b, R a b → f a = g b) {items : List α}
    {others : List β} (pairs : List.Forall₂ R items others) : items.map f = others.map g := by
  induction pairs with
  | nil => rfl
  | cons related _ ih => rw [List.map_cons, List.map_cons, agree _ _ related, ih]

theorem forall₂_filterMap_eq {f : α → Option β} {items : List α} {others : List β}
    (pairs : List.Forall₂ (fun item other => f item = some other) items others) : items.filterMap f = others := by
  induction pairs with
  | nil => rfl
  | cons read _ ih => rw [List.filterMap_cons_some read, ih]

theorem forall₂_exists_mem_zip {items : List α} {others : List β} (pairs : List.Forall₂ R items others) {item : α}
    (member : item ∈ items) : ∃ other, (item, other) ∈ items.zip others ∧ R item other := by
  induction pairs with
  | nil => cases member
  | @cons head head' rest rest' related _ ih =>
    rcases List.mem_cons.mp member with rfl | later
    · exact ⟨head', List.mem_cons_self, related⟩
    · obtain ⟨other, zipped, held⟩ := ih later
      exact ⟨other, List.mem_cons_of_mem _ zipped, held⟩

end Related

end StableSort
