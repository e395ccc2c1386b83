import Mathlib.Data.List.Forall2

namespace Logs

variable {α : Type} {R : α → α → Prop} {P : α → Prop}

/-- Every entry of the first log still stands at its place, changed at most as `R` allows; the entries after
    them are new and satisfy `P`. -/
inductive Grows (R : α → α → Prop) (P : α → Prop) : List α → List α → Prop
  | added {more : List α} (fresh : ∀ entry ∈ more, P entry) : Grows R P [] more
  | kept {old new : α} {olds news : List α} (same : R old new) (rest : Grows R P olds news) :
      Grows R P (old :: olds) (new :: news)

theorem Grows.of_forall₂ {before after more : List α} (same : List.Forall₂ R before after)
    (fresh : ∀ entry ∈ more, P entry) : Grows R P before (after ++ more) := by
  induction same with
  | nil => exact .added fresh
  | cons head _ ih => exact .kept head ih

theorem Grows.of_same {before after : List α} (same : List.Forall₂ R before after) : Grows R P before after := by
  induction same with
  | nil => exact .added fun entry member => absurd member List.not_mem_nil
  | cons head _ ih => exact .kept head ih

theorem Grows.append (reflexive : ∀ entry, R entry entry) (log : List α) {more : List α}
    (fresh : ∀ entry ∈ more, P entry) : Grows R P log (log ++ more) :=
  .of_forall₂ (List.forall₂_same.mpr fun entry _ => reflexive entry) fresh

theorem Grows.refl (reflexive : ∀ entry, R entry entry) (log : List α) : Grows R P log log := by
  exact .of_same (List.forall₂_same.mpr fun entry _ => reflexive entry)

theorem Grows.mono {Q : α → Prop} (weaker : ∀ entry, P entry → Q entry) {before after : List α}
    (grows : Grows R P before after) : Grows R Q before after := by
  induction grows with
  | added fresh => exact .added fun entry member => weaker entry (fresh entry member)
  | kept same _ ih => exact .kept same ih

theorem Grows.forall {Q : α → Prop} (weaker : ∀ entry, P entry → Q entry)
    (stable : ∀ old new, R old new → Q old → Q new) {before after : List α} (grows : Grows R P before after)
    (held : ∀ entry ∈ before, Q entry) : ∀ entry ∈ after, Q entry := by
  induction grows with
  | added fresh => exact fun entry member => weaker entry (fresh entry member)
  | kept same _ ih =>
    rw [List.forall_mem_cons] at held ⊢
    exact ⟨stable _ _ same held.1, ih held.2⟩

theorem Grows.trans (transitive : ∀ a b c, R a b → R b c → R a c) (stable : ∀ old new, R old new → P old → P new)
    {first second third : List α} (early : Grows R P first second) (late : Grows R P second third) :
    Grows R P first third := by
  induction early generalizing third with
  | added fresh => exact .added (late.forall (fun _ new => new) stable fresh)
  | kept same _ ih =>
    cases late with
    | kept again rest => exact .kept (transitive _ _ _ same again) (ih rest)

theorem Grows.getElem? {before after : List α} (grows : Grows R P before after) {index : Nat} {old : α}
    (held : before[index]? = some old) : ∃ new, after[index]? = some new ∧ R old new := by
  induction grows generalizing index with
  | added _ => simp at held
  | kept same _ ih =>
    cases index with
    | zero =>
      cases held
      exact ⟨_, rfl, same⟩
    | succ index => exact ih (by simpa using held)

theorem Grows.split {before after : List α} (grows : Grows R P before after) :
    ∃ kept added, after = kept ++ added ∧ List.Forall₂ R before kept ∧ ∀ entry ∈ added, P entry := by
  induction grows with
  | @added more fresh => exact ⟨[], more, rfl, .nil, fresh⟩
  | @kept old new olds news same _ ih =>
    rcases ih with ⟨kept, added, rfl, rest, fresh⟩
    exact ⟨new :: kept, added, rfl, .cons same rest, fresh⟩

theorem Grows.filter {p : α → Bool} (stable : ∀ old new, R old new → p new = p old) {before after : List α}
    (grows : Grows R P before after) : Grows R P (before.filter p) (after.filter p) := by
  induction grows with
  | added fresh => exact .added fun entry member => fresh entry (List.mem_of_mem_filter member)
  | @kept old new olds news same _ ih =>
    rw [List.filter_cons, List.filter_cons, stable old new same]
    split
    · exact .kept same ih
    · exact ih

theorem Grows.length_le {before after : List α} (grows : Grows R P before after) : before.length ≤ after.length := by
  induction grows with
  | added _ => exact Nat.zero_le _
  | kept _ _ ih => exact Nat.succ_le_succ ih

theorem Grows.window {before after : List α} (grows : Grows R P before after) {start count : Nat}
    (inside : start + count ≤ before.length) :
    List.Forall₂ R ((before.drop start).take count) ((after.drop start).take count) := by
  induction grows generalizing start count with
  | added _ =>
    have none : count = 0 := by simp at inside; omega
    simp [none]
  | @kept old new olds news same _ ih =>
    rw [List.length_cons] at inside
    cases start with
    | succ start => exact ih (by omega)
    | zero =>
      cases count with
      | zero => simp
      | succ count =>
        have rest := @ih 0 count (by omega)
        exact .cons same rest

theorem map_prefix_map {β : Type} {encode : α → β} (injective : Function.Injective encode) {log longer : List α} :
    log.map encode <+: longer.map encode ↔ log <+: longer := by
  constructor
  · intro grown
    rw [List.prefix_iff_eq_take, List.length_map, ← List.map_take] at grown
    rw [List.map_injective_iff.mpr injective grown]
    exact List.take_prefix _ _
  · exact fun grown => grown.map encode

end Logs
