import Mathlib.Tactic.Common

namespace GuardedCalls

/-- A call that reads and writes a state of type `σ`. What it wrote before it raised stays written. -/
abbrev Call (ε σ α : Type) := ExceptT ε (StateM σ) α

variable {ε σ α β : Type}

namespace Call

def read (f : σ → α) : Call ε σ α := fun s => (.ok (f s), s)

def write (f : σ → σ) : Call ε σ Unit := fun s => (.ok (), f s)

def ofExcept (value : Except ε α) : Call ε σ α := fun s => (value, s)

def catching (action : Call ε σ α) (handler : ε → Option (Except ε α)) : Call ε σ α := fun s =>
  match action s with
  | (.ok value, after) => (.ok value, after)
  | (.error failure, after) => ((handler failure).getD (.error failure), after)

def result (action : Call ε σ α) (s : σ) : Except ε α := (action s).1

def after (action : Call ε σ α) (s : σ) : σ := (action s).2

theorem bind_apply (action : Call ε σ α) (next : α → Call ε σ β) (s : σ) :
    (action >>= next) s = match action s with
      | (.ok value, later) => next value later
      | (.error failure, later) => (.error failure, later) := by
  show (ExceptT.bind action next) s = _
  unfold ExceptT.bind ExceptT.mk
  show (ExceptT.bindCont next (action s).1) (action s).2 = _
  rcases action s with ⟨_ | _, later⟩ <;> rfl

theorem bind_ok {action : Call ε σ α} {next : α → Call ε σ β} {s : σ} {value : β}
    (returned : (action >>= next).result s = .ok value) :
    ∃ middle, action.result s = .ok middle ∧ (next middle).result (action.after s) = .ok value ∧
      (action >>= next).after s = (next middle).after (action.after s) := by
  unfold result after at *
  rw [bind_apply] at returned ⊢
  rcases ran : action s with ⟨outcome, later⟩
  rw [ran] at returned
  cases outcome with
  | error failure => cases returned
  | ok middle => exact ⟨middle, rfl, returned, rfl⟩

theorem ite_result {condition : Prop} [Decidable condition] {yes no : Call ε σ α} {s : σ} :
    (if condition then yes else no : Call ε σ α).result s = if condition then yes.result s else no.result s := by
  split <;> rfl

theorem ite_after {condition : Prop} [Decidable condition] {yes no : Call ε σ α} {s : σ} :
    (if condition then yes else no : Call ε σ α).after s = if condition then yes.after s else no.after s := by
  split <;> rfl

@[simp] theorem pure_apply (value : α) (s : σ) : (pure value : Call ε σ α) s = (.ok value, s) := rfl

end Call

def Ensures (inv : σ → Prop) (action : Call ε σ α) (post : α → Prop) : Prop :=
  ∀ s, inv s → inv (action.after s) ∧ ∀ value, action.result s = .ok value → post value

namespace Ensures

variable {inv : σ → Prop} {action : Call ε σ α} {post : α → Prop}

theorem pure {value : α} (holds : post value) : Ensures inv (Pure.pure value : Call ε σ α) post := by
  intro s invariant
  refine ⟨invariant, ?_⟩
  intro returned same
  cases same
  exact holds

theorem bind {next : α → Call ε σ β} {mid : α → Prop} {post : β → Prop} (first : Ensures inv action mid)
    (rest : ∀ value, mid value → Ensures inv (next value) post) : Ensures inv (action >>= next) post := by
  intro s invariant
  obtain ⟨kept, returned⟩ := first s invariant
  simp only [Call.after, Call.result] at kept returned ⊢
  rw [Call.bind_apply]
  rcases ran : action s with ⟨outcome, later⟩
  rw [ran] at kept returned
  cases outcome with
  | error failure =>
    refine ⟨kept, ?_⟩
    intro value same
    cases same
  | ok value => exact rest value (returned value rfl) later kept

theorem read {f : σ → α} (holds : ∀ s, inv s → post (f s)) : Ensures inv (Call.read f : Call ε σ α) post := by
  intro s invariant
  refine ⟨invariant, ?_⟩
  intro value same
  cases same
  exact holds s invariant

theorem write {f : σ → σ} (kept : ∀ s, inv s → inv (f s)) :
    Ensures inv (Call.write f : Call ε σ Unit) fun _ => True := by
  intro s invariant
  exact ⟨kept s invariant, fun _ _ => trivial⟩

theorem ofExcept {value : Except ε α} (holds : ∀ returned, value = .ok returned → post returned) :
    Ensures inv (Call.ofExcept value) post := fun _ invariant => ⟨invariant, holds⟩

theorem outcome {value : Except ε α} :
    Ensures inv (Call.ofExcept value : Call ε σ α) fun returned => value = .ok returned :=
  ofExcept fun _ returned => returned

theorem seen {f : σ → α} : Ensures inv (Call.read f : Call ε σ α) fun value => ∃ s, inv s ∧ f s = value :=
  read fun s invariant => ⟨s, invariant, rfl⟩

theorem catching {handler : ε → Option (Except ε α)} (first : Ensures inv action post)
    (handled : ∀ failure outcome, handler failure = some outcome → ∀ value, outcome = .ok value → post value) :
    Ensures inv (action.catching handler) post := by
  intro s invariant
  obtain ⟨kept, returned⟩ := first s invariant
  simp only [Call.after, Call.result, Call.catching] at kept returned ⊢
  rcases ran : action s with ⟨outcome, later⟩
  rw [ran] at kept returned
  cases outcome with
  | ok value => exact ⟨kept, returned⟩
  | error failure =>
    refine ⟨kept, ?_⟩
    intro value same
    simp only at same
    cases named : handler failure with
    | none =>
      rw [named] at same
      cases same
    | some outcome =>
      rw [named] at same
      exact handled failure outcome named value same

theorem ite {condition : Prop} [Decidable condition] {other : Call ε σ α}
    (yes : condition → Ensures inv action post) (no : ¬ condition → Ensures inv other post) :
    Ensures inv (if condition then action else other) post := by
  split
  · next holds => exact yes holds
  · next fails => exact no fails

end Ensures

end GuardedCalls
