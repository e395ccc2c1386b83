import Mathlib.Data.List.Basic

namespace Deltas

variable {K V : Type}

/-- A partial update: `none` leaves a key alone, `some none` deletes it, `some (some v)` writes it. -/
abbrev Delta (K V : Type) := K → Option (Option V)

def apply (current : K → Option V) (delta : Delta K V) : K → Option V :=
  fun key => (delta key).getD (current key)

def lastNaming (deltas : List (Delta K V)) (key : K) : Option (Option V) :=
  deltas.foldl (fun found delta => (delta key).or found) none

theorem foldl_or (deltas : List (Delta K V)) (key : K) (found : Option (Option V)) :
    deltas.foldl (fun found delta => (delta key).or found) found = (lastNaming deltas key).or found := by
  induction deltas generalizing found with
  | nil => simp [lastNaming]
  | cons delta rest ih =>
    simp only [lastNaming, List.foldl_cons]
    rw [ih, ih ((delta key).or none), Option.or_none, Option.or_assoc]

theorem lastNaming_cons (delta : Delta K V) (rest : List (Delta K V)) (key : K) :
    lastNaming (delta :: rest) key = (lastNaming rest key).or (delta key) := by
  rw [lastNaming, List.foldl_cons, foldl_or, Option.or_none]

theorem foldl_apply (deltas : List (Delta K V)) (current : K → Option V) (key : K) :
    deltas.foldl apply current key = (lastNaming deltas key).getD (current key) := by
  induction deltas generalizing current with
  | nil => simp [lastNaming]
  | cons delta rest ih =>
    rw [List.foldl_cons, ih, lastNaming_cons]
    cases later : lastNaming rest key <;> simp [apply]

def Pinned (reads : Option V → V → Prop) (expected actual : K → Option V) : Prop :=
  ∀ key value, expected key = some value → reads (actual key) value

theorem Pinned.apply {reads : Option V → V → Prop} (written : ∀ v, reads (some v) v)
    {expected actual : K → Option V} (pinned : Pinned reads expected actual) (delta : Delta K V) :
    Pinned reads (apply expected delta) (apply actual delta) := by
  intro key value held
  unfold Deltas.apply at held ⊢
  cases named : delta key with
  | none =>
    rw [named] at held
    exact pinned key value held
  | some target =>
    rw [named] at held
    cases target with
    | none => cases held
    | some v =>
      cases held
      exact written _

end Deltas
