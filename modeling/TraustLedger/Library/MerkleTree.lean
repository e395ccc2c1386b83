import Mathlib.Algebra.Group.Nat.Defs
import Mathlib.Data.Nat.Log
import Mathlib.Data.Set.Basic
import Mathlib.Tactic.Common

namespace MerkleTree

def bitLength (n : Nat) : Nat := if n = 0 then 0 else n.log2 + 1

/-- The largest power of two strictly below `n`, for `n ≥ 2`. -/
def splitPoint (n : Nat) : Nat := 1 <<< (bitLength (n - 1) - 1)

theorem splitPoint_eq_pow {n : Nat} (large : 2 ≤ n) : splitPoint n = 2 ^ (n - 1).log2 := by
  have positive : n - 1 ≠ 0 := by omega
  simp [splitPoint, bitLength, positive, Nat.shiftLeft_eq]

theorem splitPoint_bounds {n : Nat} (large : 2 ≤ n) :
    ∃ t, splitPoint n = 2 ^ t ∧ 2 ^ t < n ∧ n ≤ 2 ^ (t + 1) := by
  refine ⟨(n - 1).log2, splitPoint_eq_pow large, ?_, ?_⟩
  · have lower := Nat.log2_self_le (n := n - 1) (by omega)
    omega
  · have upper := Nat.lt_log2_self (n := n - 1)
    omega

theorem splitPoint_pos {n : Nat} (large : 2 ≤ n) : 0 < splitPoint n := by
  obtain ⟨t, split, -, -⟩ := splitPoint_bounds large
  rw [split]
  exact Nat.two_pow_pos t

theorem splitPoint_lt {n : Nat} (large : 2 ≤ n) : splitPoint n < n := by
  obtain ⟨t, split, below, -⟩ := splitPoint_bounds large
  omega

theorem splitPoint_unique {n t : Nat} (below : 2 ^ t < n) (above : n ≤ 2 ^ (t + 1)) :
    splitPoint n = 2 ^ t := by
  have positive : 0 < 2 ^ t := Nat.two_pow_pos t
  rw [splitPoint_eq_pow (by omega)]
  congr 1
  exact (Nat.log2_eq_iff (by omega)).mpr ⟨by omega, by omega⟩

/-- Past the split point of the larger tree both trees are split at the same place, which is what
    lets one consistency proof rebuild two roots. -/
theorem splitPoint_stable {m n : Nat} (large : 2 ≤ n) (past : splitPoint n < m) (le : m ≤ n) :
    splitPoint m = splitPoint n := by
  obtain ⟨t, split, -, above⟩ := splitPoint_bounds large
  rw [split] at past ⊢
  exact splitPoint_unique past (le.trans above)

section Root

variable {δ : Type} (node : δ → δ → δ) (empty : δ)

/-- The RFC 9162 §2.1.1 Merkle tree hash over leaf digests. -/
def root (leaves : List δ) : δ :=
  match leaves with
  | [] => empty
  | [leaf] => leaf
  | first :: second :: rest =>
    let k := splitPoint (first :: second :: rest).length
    node (root ((first :: second :: rest).take k)) (root ((first :: second :: rest).drop k))
termination_by leaves.length
decreasing_by
  · have bound := splitPoint_lt (n := (first :: second :: rest).length) (by simp)
    simp only [List.length_take]
    omega
  · have positive := splitPoint_pos (n := (first :: second :: rest).length) (by simp)
    simp only [List.length_drop, List.length_cons] at positive ⊢
    omega

@[simp] theorem root_nil : root node empty [] = empty := by rw [root]

@[simp] theorem root_singleton (leaf : δ) : root node empty [leaf] = leaf := by rw [root]

theorem root_split {leaves : List δ} (large : 2 ≤ leaves.length) :
    root node empty leaves =
      node (root node empty (leaves.take (splitPoint leaves.length)))
        (root node empty (leaves.drop (splitPoint leaves.length))) := by
  match leaves, large with
  | first :: second :: rest, _ => rw [root]

def rootQueries (leaves : List δ) : List (δ × δ) :=
  match leaves with
  | [] => []
  | [_] => []
  | first :: second :: rest =>
    let k := splitPoint (first :: second :: rest).length
    let left := (first :: second :: rest).take k
    let right := (first :: second :: rest).drop k
    (root node empty left, root node empty right) :: (rootQueries left ++ rootQueries right)
termination_by leaves.length
decreasing_by
  · have bound := splitPoint_lt (n := (first :: second :: rest).length) (by simp)
    simp only [List.length_take]
    omega
  · have positive := splitPoint_pos (n := (first :: second :: rest).length) (by simp)
    simp only [List.length_drop, List.length_cons] at positive ⊢
    omega

theorem rootQueries_split {leaves : List δ} (large : 2 ≤ leaves.length) :
    rootQueries node empty leaves =
      (root node empty (leaves.take (splitPoint leaves.length)),
        root node empty (leaves.drop (splitPoint leaves.length))) ::
      (rootQueries node empty (leaves.take (splitPoint leaves.length)) ++
        rootQueries node empty (leaves.drop (splitPoint leaves.length))) := by
  match leaves, large with
  | first :: second :: rest, _ => rw [rootQueries]

end Root

/-- On the recorded queries `node` determines its two children, provided one claimed child and both
    honest children have the expected width. -/
def Binding {δ : Type} (node : δ → δ → δ) (Sized : δ → Prop) (queries : Set (δ × δ)) : Prop :=
  ∀ claimed ∈ queries, ∀ honest ∈ queries, (Sized claimed.1 ∨ Sized claimed.2) →
    Sized honest.1 → Sized honest.2 → node claimed.1 claimed.2 = node honest.1 honest.2 →
      claimed = honest

section Binding

variable {δ : Type} {node : δ → δ → δ} {empty : δ} {Sized : δ → Prop} {queries : Set (δ × δ)}

theorem take_split_length {leaves : List δ} (large : 2 ≤ leaves.length) :
    (leaves.take (splitPoint leaves.length)).length = splitPoint leaves.length := by
  have bound := splitPoint_lt large
  simp only [List.length_take]
  omega

theorem sized_root (sized : ∀ a b, Sized (node a b)) {leaves : List δ} (nonempty : leaves ≠ [])
    (leavesSized : ∀ leaf ∈ leaves, Sized leaf) : Sized (root node empty leaves) := by
  match leaves, nonempty with
  | [leaf], _ => simpa using leavesSized leaf (by simp)
  | first :: second :: rest, _ =>
    rw [root_split node empty (by simp)]
    exact sized _ _

theorem split_halves {leaves : List δ} (large : 2 ≤ leaves.length) :
    leaves.take (splitPoint leaves.length) ≠ [] ∧ leaves.drop (splitPoint leaves.length) ≠ [] ∧
      (leaves.take (splitPoint leaves.length)).length < leaves.length ∧
      (leaves.drop (splitPoint leaves.length)).length < leaves.length := by
  have positive := splitPoint_pos large
  have bound := splitPoint_lt large
  have left := take_split_length large
  refine ⟨?_, ?_, ?_, ?_⟩
  · intro h
    rw [h] at left
    simp at left
    omega
  · intro h
    have := congrArg List.length h
    simp at this
    omega
  · omega
  · simp only [List.length_drop]
    omega

theorem subset_of_split {leaves : List δ} (large : 2 ≤ leaves.length)
    (sub : ∀ q ∈ rootQueries node empty leaves, q ∈ queries) :
    (root node empty (leaves.take (splitPoint leaves.length)),
        root node empty (leaves.drop (splitPoint leaves.length))) ∈ queries ∧
      (∀ q ∈ rootQueries node empty (leaves.take (splitPoint leaves.length)), q ∈ queries) ∧
      (∀ q ∈ rootQueries node empty (leaves.drop (splitPoint leaves.length)), q ∈ queries) := by
  rw [rootQueries_split node empty large] at sub
  refine ⟨sub _ (by simp), fun q member => sub q ?_, fun q member => sub q ?_⟩
  · simp [member]
  · simp [member]

theorem sized_halves {leaves : List δ} (leavesSized : ∀ leaf ∈ leaves, Sized leaf) (k : Nat) :
    (∀ leaf ∈ leaves.take k, Sized leaf) ∧ ∀ leaf ∈ leaves.drop k, Sized leaf :=
  ⟨fun leaf member => leavesSized leaf (List.mem_of_mem_take member),
    fun leaf member => leavesSized leaf (List.mem_of_mem_drop member)⟩

theorem root_binding (sized : ∀ a b, Sized (node a b)) (binding : Binding node Sized queries)
    {left right : List δ} (length : left.length = right.length)
    (leftSized : ∀ leaf ∈ left, Sized leaf) (rightSized : ∀ leaf ∈ right, Sized leaf)
    (leftSub : ∀ q ∈ rootQueries node empty left, q ∈ queries)
    (rightSub : ∀ q ∈ rootQueries node empty right, q ∈ queries)
    (same : root node empty left = root node empty right) : left = right := by
  -- induction on the common length; the split point depends on the length only
  induction hn : left.length using Nat.strongRecOn generalizing left right with
  | ind n ih =>
    by_cases large : 2 ≤ left.length
    · have largeRight : 2 ≤ right.length := by omega
      obtain ⟨leftFirst, leftSecond, leftShort, leftShort'⟩ := split_halves large
      obtain ⟨rightFirst, rightSecond, -, -⟩ := split_halves largeRight
      obtain ⟨leftQuery, leftSub₁, leftSub₂⟩ := subset_of_split large leftSub
      obtain ⟨rightQuery, rightSub₁, rightSub₂⟩ := subset_of_split largeRight rightSub
      have takeSized : ∀ {leaves : List δ} (k : Nat), (∀ leaf ∈ leaves, Sized leaf) →
          ∀ leaf ∈ leaves.take k, Sized leaf :=
        fun k all leaf member => all leaf (List.mem_of_mem_take member)
      have dropSized : ∀ {leaves : List δ} (k : Nat), (∀ leaf ∈ leaves, Sized leaf) →
          ∀ leaf ∈ leaves.drop k, Sized leaf :=
        fun k all leaf member => all leaf (List.mem_of_mem_drop member)
      rw [root_split node empty large, root_split node empty largeRight] at same
      have children := binding _ leftQuery _ rightQuery
        (.inl (sized_root sized leftFirst (takeSized _ leftSized)))
        (sized_root sized rightFirst (takeSized _ rightSized))
        (sized_root sized rightSecond (dropSized _ rightSized)) same
      rw [length] at children
      simp only [Prod.mk.injEq] at children
      rw [length] at leftShort leftShort' leftSub₁ leftSub₂
      have first := ih _ (by omega) (by simp [length]) (takeSized _ leftSized)
        (takeSized _ rightSized) leftSub₁ rightSub₁ children.1 rfl
      have second := ih _ (by omega) (by simp [length]) (dropSized _ leftSized)
        (dropSized _ rightSized) leftSub₂ rightSub₂ children.2 rfl
      rw [← List.take_append_drop (splitPoint right.length) left, first, second,
        List.take_append_drop]
    · match left, right, length, same with
      | [], [], _, _ => rfl
      | [_], [_], _, same => simpa using same
      | _ :: _ :: _, _, _, _ => simp at large

structure Apart (node : δ → δ → δ) (empty : δ) (queries : Set (δ × δ)) (leaves : Set δ) : Prop where
  nodeEmpty : ∀ q ∈ queries, node q.1 q.2 ≠ empty
  nodeLeaf : ∀ q ∈ queries, ∀ leaf ∈ leaves, node q.1 q.2 ≠ leaf
  leafEmpty : ∀ leaf ∈ leaves, leaf ≠ empty

theorem root_apart {leavesIn : Set δ} (apart : Apart node empty queries leavesIn) {small large : List δ}
    (short : small.length < 2) (long : 2 ≤ large.length) (smallIn : ∀ leaf ∈ small, leaf ∈ leavesIn)
    (largeSub : ∀ q ∈ rootQueries node empty large, q ∈ queries) :
    root node empty large ≠ root node empty small := by
  rw [root_split node empty long]
  have query := (subset_of_split long largeSub).1
  match small, short with
  | [], _ =>
    rw [root_nil]
    exact apart.nodeEmpty _ query
  | [leaf], _ =>
    rw [root_singleton]
    exact apart.nodeLeaf _ query leaf (smallIn leaf (by simp))

theorem root_injective (sized : ∀ a b, Sized (node a b)) (binding : Binding node Sized queries) {leavesIn : Set δ}
    (apart : Apart node empty queries leavesIn) {left right : List δ}
    (leftSized : ∀ leaf ∈ left, Sized leaf) (rightSized : ∀ leaf ∈ right, Sized leaf)
    (leftIn : ∀ leaf ∈ left, leaf ∈ leavesIn) (rightIn : ∀ leaf ∈ right, leaf ∈ leavesIn)
    (leftSub : ∀ q ∈ rootQueries node empty left, q ∈ queries)
    (rightSub : ∀ q ∈ rootQueries node empty right, q ∈ queries)
    (same : root node empty left = root node empty right) : left = right := by
  -- induction on one length only: the two split points are not known to agree
  induction hn : left.length using Nat.strongRecOn generalizing left right with
  | ind n ih =>
    by_cases large : 2 ≤ left.length
    · by_cases largeRight : 2 ≤ right.length
      · obtain ⟨leftFirst, leftSecond, leftShort, leftShort'⟩ := split_halves large
        obtain ⟨rightFirst, rightSecond, -, -⟩ := split_halves largeRight
        obtain ⟨leftQuery, leftSub₁, leftSub₂⟩ := subset_of_split large leftSub
        obtain ⟨rightQuery, rightSub₁, rightSub₂⟩ := subset_of_split largeRight rightSub
        obtain ⟨leftTake, leftDrop⟩ := sized_halves leftSized (splitPoint left.length)
        obtain ⟨rightTake, rightDrop⟩ := sized_halves rightSized (splitPoint right.length)
        obtain ⟨leftTakeIn, leftDropIn⟩ := sized_halves leftIn (splitPoint left.length)
        obtain ⟨rightTakeIn, rightDropIn⟩ := sized_halves rightIn (splitPoint right.length)
        rw [root_split node empty large, root_split node empty largeRight] at same
        have children := binding _ leftQuery _ rightQuery (.inl (sized_root sized leftFirst leftTake))
          (sized_root sized rightFirst rightTake) (sized_root sized rightSecond rightDrop) same
        simp only [Prod.mk.injEq] at children
        have first := ih _ (by omega) leftTake rightTake leftTakeIn rightTakeIn leftSub₁ rightSub₁ children.1 rfl
        have second := ih _ (by omega) leftDrop rightDrop leftDropIn rightDropIn leftSub₂ rightSub₂ children.2 rfl
        rw [← List.take_append_drop (splitPoint left.length) left, first, second, List.take_append_drop]
      · exact absurd same (root_apart apart (by omega) large rightIn leftSub)
    · by_cases largeRight : 2 ≤ right.length
      · exact absurd same.symm (root_apart apart (by omega) largeRight leftIn rightSub)
      · match left, right, large, largeRight with
        | [], [], _, _ => rfl
        | [a], [b], _, _ => simpa using same
        | [], [b], _, _ =>
          rw [root_nil, root_singleton] at same
          exact absurd same.symm (apart.leafEmpty b (rightIn b (by simp)))
        | [a], [], _, _ =>
          rw [root_nil, root_singleton] at same
          exact absurd same (apart.leafEmpty a (leftIn a (by simp)))
        | _ :: _ :: _, _, large, _ => simp at large
        | _, _ :: _ :: _, _, largeRight => simp at largeRight

end Binding

end MerkleTree
