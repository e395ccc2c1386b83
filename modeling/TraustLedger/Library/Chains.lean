import Mathlib.Data.Set.Finite.Basic
import Mathlib.Logic.Relation
import Mathlib.Order.WellFounded

namespace Chains

variable {α : Type} {next : α → Option α}

def Link (next : α → Option α) (item successor : α) : Prop := next item = some successor

def Acyclic (next : α → Option α) : Prop := ∀ item, ¬ Relation.TransGen (Link next) item item

def EndsAt (next : α → Option α) (item last : α) : Prop :=
  Relation.ReflTransGen (Link next) item last ∧ next last = none

theorem endsAt_of_none {item last : α} (live : next item = none) : EndsAt next item last ↔ last = item := by
  constructor
  · rintro ⟨path, -⟩
    rcases Relation.ReflTransGen.cases_head path with rfl | ⟨successor, link, -⟩
    · rfl
    · rw [Link, live] at link
      cases link
  · rintro rfl
    exact ⟨.refl, live⟩

theorem endsAt_of_some {item successor last : α} (link : next item = some successor) :
    EndsAt next item last ↔ EndsAt next successor last := by
  constructor
  · rintro ⟨path, ended⟩
    rcases Relation.ReflTransGen.cases_head path with rfl | ⟨other, step, rest⟩
    · rw [link] at ended
      cases ended
    · rw [Link, link] at step
      cases step
      exact ⟨rest, ended⟩
  · rintro ⟨path, ended⟩
    exact ⟨.head link path, ended⟩

theorem acyclic_of_rank (rank : α → Nat)
    (falls : ∀ item successor, next item = some successor → rank successor < rank item) : Acyclic next := by
  have lower : ∀ item last, Relation.TransGen (Link next) item last → rank last < rank item := by
    intro item last path
    induction path with
    | single link => exact falls _ _ link
    | tail _ link ih => exact (falls _ _ link).trans ih
  exact fun item path => (lower item item path).false

/-- Where no chain runs in a circle and the successors are finitely many, every chain has an end. -/
theorem Acyclic.exists_end (acyclic : Acyclic next) {values : Set α} (finite : values.Finite)
    (inside : ∀ item successor, next item = some successor → successor ∈ values) (start : α) :
    ∃ last, EndsAt next start last := by
  have bounded : Finite values := finite
  let Later (left right : values) : Prop := Relation.TransGen (Link next) right left
  have irreflexive : Std.Irrefl Later := ⟨fun item => acyclic item⟩
  have transitive : IsTrans values Later := ⟨fun _ _ _ first second => Relation.TransGen.trans second first⟩
  have founded : WellFounded Later := Finite.wellFounded_of_trans_of_irrefl Later
  have ends : ∀ item : values, ∃ last, EndsAt next item last := by
    intro item
    induction item using founded.induction with
    | _ item ih =>
      cases link : next item with
      | none => exact ⟨item, .refl, link⟩
      | some successor =>
        obtain ⟨last, ended⟩ := ih ⟨successor, inside _ _ link⟩ (.single link)
        exact ⟨last, (endsAt_of_some link).mpr ended⟩
  cases link : next start with
  | none => exact ⟨start, .refl, link⟩
  | some successor =>
    obtain ⟨last, ended⟩ := ends ⟨successor, inside _ _ link⟩
    exact ⟨last, (endsAt_of_some link).mpr ended⟩

end Chains
