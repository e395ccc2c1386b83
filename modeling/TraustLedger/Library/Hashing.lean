import Mathlib.Data.List.ProdSigma
import Mathlib.Tactic.Common

namespace Hashing

abbrev Bytes := List UInt8

/-- A hash with the fixed digest width of SHA-256. Nothing else is assumed of it, so every result
    below holds of functions that do have collisions. -/
structure HashFunction where
  digest : Bytes → Bytes
  digest_length : ∀ message, (digest message).length = 32

variable (H : HashFunction)

def IsCollision (pair : Bytes × Bytes) : Prop :=
  pair.1 ≠ pair.2 ∧ H.digest pair.1 = H.digest pair.2

instance (pair : Bytes × Bytes) : Decidable (IsCollision H pair) :=
  inferInstanceAs (Decidable (_ ∧ _))

/-- The extractor searches the messages a computation hashed, never the whole message space:
    a fixed-width digest always has collisions somewhere. -/
def findCollision (messages : List Bytes) : Option (Bytes × Bytes) :=
  (messages.product messages).find? fun pair => decide (IsCollision H pair)

def CollisionFree (messages : List Bytes) : Prop :=
  ∀ x ∈ messages, ∀ y ∈ messages, H.digest x = H.digest y → x = y

variable {H}

theorem findCollision_isCollision {messages : List Bytes} {pair : Bytes × Bytes}
    (found : findCollision H messages = some pair) : IsCollision H pair := by
  have accepted := List.find?_some found
  simpa using accepted

theorem collisionFree_of_findCollision {messages : List Bytes}
    (none_found : findCollision H messages = none) : CollisionFree H messages := by
  intro x hx y hy same
  have rejected := List.find?_eq_none.mp none_found (x, y) (List.mem_product.mpr ⟨hx, hy⟩)
  by_contra distinct
  exact rejected (by simpa using ⟨distinct, same⟩)

/-- Every binding argument is run under `CollisionFree` of the messages it looks at and becomes an
    extraction statement here. -/
theorem holds_or_findCollision {messages : List Bytes} {P : Prop}
    (binding : CollisionFree H messages → P) :
    P ∨ ∃ pair, findCollision H messages = some pair ∧ IsCollision H pair := by
  cases found : findCollision H messages with
  | none => exact .inl (binding (collisionFree_of_findCollision found))
  | some pair => exact .inr ⟨pair, rfl, findCollision_isCollision found⟩

theorem findCollision_self {message other : Bytes} (same : message = other) : findCollision H [message, other] = none := by
  cases found : findCollision H [message, other] with
  | none => rfl
  | some pair =>
    rcases pair with ⟨first, second⟩
    have member := List.mem_product.mp (List.mem_of_find?_eq_some found)
    rw [same] at member
    simp only [List.mem_cons, List.not_mem_nil, or_false, or_self] at member
    exact absurd (member.1.trans member.2.symm) (findCollision_isCollision found).1

end Hashing
