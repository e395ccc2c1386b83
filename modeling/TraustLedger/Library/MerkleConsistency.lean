import TraustLedger.Library.MerkleInclusion
import TraustLedger.Library.ConsistencyWalk

namespace MerkleTree

section Subproof

variable {δ : Type} (node : δ → δ → δ) (empty : δ)

/-- RFC 9162 §2.1.4.1 `SUBPROOF`; `complete` says that the old tree is still a complete subtree whose
    root the verifier already has. -/
def subproof (m : Nat) (leaves : List δ) (complete : Bool) : List δ :=
  if m = leaves.length then if complete then [] else [root node empty leaves]
  else if _ : 2 ≤ leaves.length then
    let k := splitPoint leaves.length
    if m ≤ k then subproof m (leaves.take k) complete ++ [root node empty (leaves.drop k)]
    else subproof (m - k) (leaves.drop k) false ++ [root node empty (leaves.take k)]
  else []
termination_by leaves.length
decreasing_by
  · exact (split_halves ‹2 ≤ leaves.length›).2.2.1
  · exact (split_halves ‹2 ≤ leaves.length›).2.2.2

theorem subproof_all (leaves : List δ) (complete : Bool) :
    subproof node empty leaves.length leaves complete =
      if complete then [] else [root node empty leaves] := by
  rw [subproof]
  simp

theorem subproof_left {m : Nat} {leaves : List δ} (positive : 0 < m) (lt : m < leaves.length)
    (left : m ≤ splitPoint leaves.length) (complete : Bool) :
    subproof node empty m leaves complete =
      subproof node empty m (leaves.take (splitPoint leaves.length)) complete ++
        [root node empty (leaves.drop (splitPoint leaves.length))] := by
  rw [subproof]
  simp [lt.ne, show 2 ≤ leaves.length by omega, left]

theorem subproof_right {m : Nat} {leaves : List δ} (positive : 0 < m) (lt : m < leaves.length)
    (right : ¬ m ≤ splitPoint leaves.length) (complete : Bool) :
    subproof node empty m leaves complete =
      subproof node empty (m - splitPoint leaves.length)
          (leaves.drop (splitPoint leaves.length)) false ++
        [root node empty (leaves.take (splitPoint leaves.length))] := by
  rw [subproof]
  simp [lt.ne, show 2 ≤ leaves.length by omega, right]

def extend (roots : δ × δ) (step : Bool × δ) : δ × δ :=
  if step.1 then (roots.1, node roots.2 step.2) else (node step.2 roots.1, node step.2 roots.2)

def rebuild (roots : δ × δ) (steps : List (Bool × δ)) : δ × δ := steps.foldl (extend node) roots

def extendQueries (roots : δ × δ) (step : Bool × δ) : List (δ × δ) :=
  if step.1 then [(roots.2, step.2)] else [(step.2, roots.1), (step.2, roots.2)]

def rebuildQueries (roots : δ × δ) : List (Bool × δ) → List (δ × δ)
  | [] => []
  | step :: steps => extendQueries roots step ++ rebuildQueries (extend node roots step) steps

theorem rebuild_snoc (roots : δ × δ) (steps : List (Bool × δ)) (step : Bool × δ) :
    rebuild node roots (steps ++ [step]) = extend node (rebuild node roots steps) step := by
  simp [rebuild]

theorem rebuildQueries_snoc (roots : δ × δ) (steps : List (Bool × δ)) (step : Bool × δ) :
    rebuildQueries node roots (steps ++ [step]) =
      rebuildQueries node roots steps ++ extendQueries (rebuild node roots steps) step := by
  induction steps generalizing roots with
  | nil => simp [rebuildQueries, rebuild]
  | cons head tail ih =>
    simp only [List.cons_append, rebuildQueries, ih, List.append_assoc, rebuild, List.foldl_cons]

theorem root_take_split {m : Nat} {leaves : List δ} (lt : m < leaves.length)
    (past : splitPoint leaves.length < m) (large : 2 ≤ leaves.length) :
    root node empty (leaves.take m) =
      node (root node empty (leaves.take (splitPoint leaves.length)))
        (root node empty ((leaves.drop (splitPoint leaves.length)).take
          (m - splitPoint leaves.length))) := by
  have positive := splitPoint_pos large
  have length : (leaves.take m).length = m := by
    rw [List.length_take]
    omega
  have stable := splitPoint_stable large past lt.le
  rw [root_split node empty (by omega), length, stable, List.take_take, List.drop_take,
    Nat.min_eq_left past.le]

theorem subproof_rebuild {m : Nat} {leaves : List δ} (positive : 0 < m) (le : m ≤ leaves.length) :
    ∃ seed siblings, subproof node empty m leaves false = seed :: siblings ∧
      siblings.length = (extensions m leaves.length).length ∧
      rebuild node (seed, seed) ((extensions m leaves.length).reverse.zip siblings) =
        (root node empty (leaves.take m), root node empty leaves) := by
  induction hn : leaves.length using Nat.strongRecOn generalizing leaves m with
  | ind n ih =>
    subst hn
    rcases le.lt_or_eq with lt | rfl
    · have large : 2 ≤ leaves.length := by omega
      obtain ⟨-, -, leftShort, rightShort⟩ := split_halves large
      have leftLength := take_split_length large
      have splitPositive := splitPoint_pos large
      by_cases left : m ≤ splitPoint leaves.length
      · obtain ⟨seed, siblings, proof, length, rebuilt⟩ :=
          ih _ leftShort positive (by omega : m ≤ (leaves.take (splitPoint leaves.length)).length) rfl
        rw [leftLength] at length rebuilt
        refine ⟨seed, siblings ++ [root node empty (leaves.drop (splitPoint leaves.length))], ?_, ?_, ?_⟩
        · rw [subproof_left node empty positive lt left, proof]
          rfl
        · simp [extensions_left positive lt left, length]
        · rw [extensions_left positive lt left, zip_reverse_snoc _ _ _ _ length.symm, rebuild_snoc,
            rebuilt, List.take_take, Nat.min_eq_left left, root_split node empty large]
          rfl
      · have rightLength := List.length_drop (i := splitPoint leaves.length) (l := leaves)
        obtain ⟨seed, siblings, proof, length, rebuilt⟩ :=
          ih _ rightShort (by omega : 0 < m - splitPoint leaves.length) (by omega) rfl
        rw [rightLength] at length rebuilt
        refine ⟨seed, siblings ++ [root node empty (leaves.take (splitPoint leaves.length))], ?_, ?_, ?_⟩
        · rw [subproof_right node empty positive lt left, proof]
          rfl
        · simp [extensions_right positive lt left, length]
        · rw [extensions_right positive lt left, zip_reverse_snoc _ _ _ _ length.symm, rebuild_snoc,
            rebuilt, root_take_split node empty lt (by omega) large, root_split node empty large]
          rfl
    · refine ⟨root node empty leaves, [], ?_, ?_, ?_⟩
      · simp [subproof_all]
      · simp
      · simp [rebuild]

theorem subproof_rebuild_complete {m : Nat} {leaves : List δ} (positive : 0 < m)
    (le : m ≤ leaves.length) (edge : ∀ e ∈ extensions m leaves.length, e = true) :
    (subproof node empty m leaves true).length = (extensions m leaves.length).length ∧
      rebuild node (root node empty (leaves.take m), root node empty (leaves.take m))
          ((extensions m leaves.length).reverse.zip (subproof node empty m leaves true)) =
        (root node empty (leaves.take m), root node empty leaves) := by
  induction hn : leaves.length using Nat.strongRecOn generalizing leaves m with
  | ind n ih =>
    subst hn
    rcases le.lt_or_eq with lt | rfl
    · have large : 2 ≤ leaves.length := by omega
      obtain ⟨-, -, leftShort, -⟩ := split_halves large
      have leftLength := take_split_length large
      by_cases left : m ≤ splitPoint leaves.length
      · rw [extensions_left positive lt left] at edge ⊢
        have below := ih _ leftShort positive
          (by omega : m ≤ (leaves.take (splitPoint leaves.length)).length)
          (by rw [leftLength]; exact fun e member => edge e (by simp [member])) rfl
        rw [leftLength, List.take_take, Nat.min_eq_left left] at below
        rw [subproof_left node empty positive lt left]
        refine ⟨by simp [below.1], ?_⟩
        rw [zip_reverse_snoc _ _ _ _ below.1.symm, rebuild_snoc, below.2, root_split node empty large]
        rfl
      · rw [extensions_right positive lt left] at edge
        simpa using edge false (by simp)
    · simp [subproof_all, rebuild]

theorem subproof_off_edge {m : Nat} {leaves : List δ} (positive : 0 < m) (le : m ≤ leaves.length)
    (off : ¬ ∀ e ∈ extensions m leaves.length, e = true) :
    subproof node empty m leaves true = subproof node empty m leaves false := by
  induction hn : leaves.length using Nat.strongRecOn generalizing leaves m with
  | ind n ih =>
    subst hn
    rcases le.lt_or_eq with lt | rfl
    · have large : 2 ≤ leaves.length := by omega
      obtain ⟨-, -, leftShort, -⟩ := split_halves large
      have leftLength := take_split_length large
      by_cases left : m ≤ splitPoint leaves.length
      · rw [subproof_left node empty positive lt left, subproof_left node empty positive lt left]
        congr 1
        refine ih _ leftShort positive (by omega) ?_ rfl
        rw [leftLength]
        intro edge
        apply off
        rw [extensions_left positive lt left]
        simpa using edge
      · rw [subproof_right node empty positive lt left, subproof_right node empty positive lt left]
    · simp at off

end Subproof

theorem extensions_edge_iff {m n : Nat} (positive : 0 < m) (lt : m < n) :
    (∀ e ∈ extensions m n, e = true) ↔ m &&& (m - 1) = 0 := by
  rw [Nat.and_sub_one_eq_zero_iff_isPowerOfTwo (by omega)]
  induction n using Nat.strongRecOn generalizing m with
  | ind n ih =>
    obtain ⟨t, split, below, above⟩ := splitPoint_bounds (n := n) (by omega)
    by_cases left : m ≤ splitPoint n
    · rw [extensions_left positive lt left]
      rcases left.lt_or_eq with inside | complete
      · simpa using ih (splitPoint n) (by omega) positive inside
      · simpa [complete, split] using (⟨t, rfl⟩ : (2 ^ t).isPowerOfTwo)
    · rw [extensions_right positive lt left]
      refine ⟨fun edge => by simpa using edge false (by simp), ?_⟩
      rintro ⟨s, rfl⟩
      -- no power of two lies strictly between the split point and its double
      have lower : t < s := (Nat.pow_lt_pow_iff_right (a := 2) (by omega)).mp (by omega)
      have upper : s < t + 1 := (Nat.pow_lt_pow_iff_right (a := 2) (by omega)).mp (by omega)
      omega

section Soundness

variable {δ : Type} {node : δ → δ → δ} {empty : δ} {Sized : δ → Prop} {queries : Set (δ × δ)}

theorem sized_rebuild_snd (sized : ∀ a b, Sized (node a b)) (roots : δ × δ)
    {steps : List (Bool × δ)} (nonempty : steps ≠ []) : Sized (rebuild node roots steps).2 := by
  obtain ⟨rest, last, snoc⟩ := (List.eq_nil_or_concat steps).resolve_left nonempty
  rw [List.concat_eq_append] at snoc
  subst snoc
  rw [rebuild_snoc, extend]
  split <;> exact sized _ _

theorem rebuild_top_left (binding : Binding node Sized queries) {roots : δ × δ}
    {steps : List (Bool × δ)} {top oldRoot left right : δ} (secondSized : Sized (rebuild node roots steps).2)
    (leftSized : Sized left) (rightSized : Sized right) (honest : (left, right) ∈ queries)
    (stepSub : ∀ q ∈ rebuildQueries node roots (steps ++ [(true, top)]), q ∈ queries)
    (reached : rebuild node roots (steps ++ [(true, top)]) = (oldRoot, node left right)) :
    rebuild node roots steps = (oldRoot, left) := by
  rw [rebuildQueries_snoc] at stepSub
  rw [rebuild_snoc, extend] at reached
  simp only [if_true, Prod.mk.injEq] at reached
  have last := stepSub _ (List.mem_append_right _ (by simp [extendQueries]; rfl))
  have children := binding _ last _ honest (.inl secondSized) leftSized rightSized reached.2
  exact Prod.ext reached.1 (congrArg Prod.fst children)

theorem rebuild_top_right (sized : ∀ a b, Sized (node a b)) (binding : Binding node Sized queries)
    {roots : δ × δ} {steps : List (Bool × δ)} {top oldLeft oldRight left right : δ} (stepped : steps ≠ [])
    (oldLeftSized : Sized oldLeft) (oldRightSized : Sized oldRight) (leftSized : Sized left)
    (rightSized : Sized right) (oldHonest : (oldLeft, oldRight) ∈ queries) (honest : (left, right) ∈ queries)
    (stepSub : ∀ q ∈ rebuildQueries node roots (steps ++ [(false, top)]), q ∈ queries)
    (reached : rebuild node roots (steps ++ [(false, top)]) = (node oldLeft oldRight, node left right)) :
    oldLeft = left ∧ rebuild node roots steps = (oldRight, right) := by
  rw [rebuildQueries_snoc] at stepSub
  rw [rebuild_snoc, extend] at reached
  simp only [Bool.false_eq_true, if_false, Prod.mk.injEq] at reached
  have newLast := stepSub _ (List.mem_append_right _ (by simp [extendQueries]; exact .inr rfl))
  have oldLast := stepSub _ (List.mem_append_right _ (by simp [extendQueries]; exact .inl rfl))
  have newChildren := binding _ newLast _ honest (.inr (sized_rebuild_snd sized _ stepped)) leftSized
    rightSized reached.2
  simp only [Prod.mk.injEq] at newChildren
  have topSized : Sized top := newChildren.1 ▸ leftSized
  have oldChildren := binding _ oldLast _ oldHonest (.inl topSized) oldLeftSized oldRightSized reached.1
  simp only [Prod.mk.injEq] at oldChildren
  exact ⟨oldChildren.1.symm.trans newChildren.1, Prod.ext oldChildren.2 newChildren.2⟩

theorem zip_ne_nil {m n : Nat} {siblings : List δ} (positive : 0 < m) (lt : m < n)
    (length : siblings.length = (extensions m n).length) :
    (extensions m n).reverse.zip siblings ≠ [] := by
  intro none
  have zero := congrArg List.length none
  simp only [List.length_zip, List.length_reverse, length, Nat.min_self, List.length_nil] at zero
  exact extensions_ne_nil positive lt (List.eq_nil_of_length_eq_zero zero)

theorem siblings_snoc {m n : Nat} {siblings : List δ} (positive : 0 < m) (lt : m < n)
    (length : siblings.length = (extensions m n).length) : ∃ rest top, siblings = rest ++ [top] := by
  have nonempty : siblings ≠ [] := by
    rintro rfl
    exact extensions_ne_nil positive lt (List.eq_nil_of_length_eq_zero length.symm)
  obtain ⟨rest, top, snoc⟩ := (List.eq_nil_or_concat siblings).resolve_left nonempty
  exact ⟨rest, top, by rw [snoc, List.concat_eq_append]⟩

/-- An accepted rebuild: one seed and one sibling list lead to the roots of an old and a new tree, and
    everything hashed on the way is among the recorded queries. -/
structure Rebuilt (node : δ → δ → δ) (empty : δ) (Sized : δ → Prop) (queries : Set (δ × δ)) (seed : δ)
    (old new siblings : List δ) : Prop where
  positive : 0 < old.length
  le : old.length ≤ new.length
  oldSized : ∀ leaf ∈ old, Sized leaf
  newSized : ∀ leaf ∈ new, Sized leaf
  length : siblings.length = (extensions old.length new.length).length
  oldSub : ∀ q ∈ rootQueries node empty old, q ∈ queries
  newSub : ∀ q ∈ rootQueries node empty new, q ∈ queries
  stepSub : ∀ q ∈ rebuildQueries node (seed, seed) ((extensions old.length new.length).reverse.zip siblings),
    q ∈ queries
  reached : rebuild node (seed, seed) ((extensions old.length new.length).reverse.zip siblings) =
    (root node empty old, root node empty new)

theorem Rebuilt.left (sized : ∀ a b, Sized (node a b)) (binding : Binding node Sized queries) {seed : δ}
    {old new siblings : List δ} (rebuilt : Rebuilt node empty Sized queries seed old new siblings)
    (lt : old.length < new.length) (left : old.length ≤ splitPoint new.length) :
    ∃ rest, Rebuilt node empty Sized queries seed old (new.take (splitPoint new.length)) rest := by
  obtain ⟨positive, le, oldSized, newSized, length, oldSub, newSub, stepSub, reached⟩ := rebuilt
  have large : 2 ≤ new.length := by omega
  obtain ⟨first, second, -, -⟩ := split_halves large
  obtain ⟨newQuery, newSub₁, -⟩ := subset_of_split large newSub
  obtain ⟨takeSized, dropSized⟩ := sized_halves newSized (splitPoint new.length)
  have leftLength := take_split_length large
  obtain ⟨rest, top, rfl⟩ := siblings_snoc positive lt length
  rw [root_split node empty large] at reached
  rw [extensions_left positive lt left] at length stepSub reached
  have restLength : rest.length = (extensions old.length (splitPoint new.length)).length := by
    simpa using length
  rw [zip_reverse_snoc _ _ _ _ restLength.symm] at stepSub reached
  -- the second root has digest width: it was just hashed, or no step was taken and it is the old root
  have secondSized : Sized (rebuild node (seed, seed)
      ((extensions old.length (splitPoint new.length)).reverse.zip rest)).2 := by
    by_cases stepped : (extensions old.length (splitPoint new.length)).reverse.zip rest = []
    · rw [stepped] at reached ⊢
      have seedRoot : seed = root node empty old := congrArg Prod.fst reached
      rw [show (rebuild node (seed, seed) []).2 = seed from rfl, seedRoot]
      exact sized_root sized (List.ne_nil_of_length_pos positive) oldSized
    · exact sized_rebuild_snd sized _ stepped
  have children := rebuild_top_left binding secondSized (sized_root sized first takeSized)
    (sized_root sized second dropSized) newQuery stepSub reached
  rw [rebuildQueries_snoc] at stepSub
  refine ⟨rest, positive, ?_, oldSized, takeSized, ?_, oldSub, newSub₁, ?_, ?_⟩
  · rw [leftLength]
    exact left
  · rw [leftLength]
    exact restLength
  · rw [leftLength]
    exact fun q member => stepSub q (List.mem_append_left _ member)
  · rw [leftLength]
    exact children

theorem Rebuilt.right (sized : ∀ a b, Sized (node a b)) (binding : Binding node Sized queries) {seed : δ}
    {old new siblings : List δ} (rebuilt : Rebuilt node empty Sized queries seed old new siblings)
    (lt : old.length < new.length) (past : splitPoint new.length < old.length) :
    old.take (splitPoint new.length) = new.take (splitPoint new.length) ∧
      ∃ rest, Rebuilt node empty Sized queries seed (old.drop (splitPoint new.length))
        (new.drop (splitPoint new.length)) rest := by
  obtain ⟨positive, le, oldSized, newSized, length, oldSub, newSub, stepSub, reached⟩ := rebuilt
  have large : 2 ≤ new.length := by omega
  have splitPositive := splitPoint_pos large
  have oldLarge : 2 ≤ old.length := by omega
  obtain ⟨first, second, -, -⟩ := split_halves large
  obtain ⟨oldFirst, oldSecond, -, -⟩ := split_halves oldLarge
  obtain ⟨newQuery, newSub₁, newSub₂⟩ := subset_of_split large newSub
  obtain ⟨oldQuery, oldSub₁, oldSub₂⟩ := subset_of_split oldLarge oldSub
  obtain ⟨takeSized, dropSized⟩ := sized_halves newSized (splitPoint new.length)
  obtain ⟨oldTakeSized, oldDropSized⟩ := sized_halves oldSized (splitPoint new.length)
  obtain ⟨rest, top, rfl⟩ := siblings_snoc positive lt length
  rw [root_split node empty large, root_split node empty oldLarge] at reached
  rw [splitPoint_stable large past le] at oldFirst oldSecond oldQuery oldSub₁ oldSub₂ reached
  rw [extensions_right positive lt (by omega)] at length stepSub reached
  have restLength : rest.length = (extensions (old.length - splitPoint new.length)
      (new.length - splitPoint new.length)).length := by
    simpa using length
  rw [zip_reverse_snoc _ _ _ _ restLength.symm] at stepSub reached
  have children := rebuild_top_right sized binding (zip_ne_nil (by omega) (by omega) restLength)
    (sized_root sized oldFirst oldTakeSized) (sized_root sized oldSecond oldDropSized)
    (sized_root sized first takeSized) (sized_root sized second dropSized) oldQuery newQuery stepSub reached
  rw [rebuildQueries_snoc] at stepSub
  have oldRight := List.length_drop (i := splitPoint new.length) (l := old)
  have newRight := List.length_drop (i := splitPoint new.length) (l := new)
  have shared : old.take (splitPoint new.length) = new.take (splitPoint new.length) :=
    root_binding sized binding (by simp; omega) oldTakeSized takeSized oldSub₁ newSub₁ children.1
  refine ⟨shared, rest, by omega, by omega, oldDropSized, dropSized, ?_, oldSub₂, newSub₂, ?_, ?_⟩
  · rw [oldRight, newRight]
    exact restLength
  · rw [oldRight, newRight]
    exact fun q member => stepSub q (List.mem_append_left _ member)
  · rw [oldRight, newRight]
    exact children.2

/-- Soundness: two roots rebuilt from one seed and one sibling list belong to a tree and one of its
    prefixes, whatever byte strings the siblings are. -/
theorem rebuild_sound (sized : ∀ a b, Sized (node a b)) (binding : Binding node Sized queries) {seed : δ}
    {old new siblings : List δ} (rebuilt : Rebuilt node empty Sized queries seed old new siblings) :
    old = new.take old.length := by
  induction hn : new.length using Nat.strongRecOn generalizing old new siblings with
  | ind n ih =>
    subst hn
    rcases rebuilt.le.lt_or_eq with lt | same
    · have positive := rebuilt.positive
      have large : 2 ≤ new.length := by omega
      obtain ⟨-, -, leftShort, rightShort⟩ := split_halves large
      by_cases left : old.length ≤ splitPoint new.length
      · obtain ⟨rest, below⟩ := rebuilt.left sized binding lt left
        have start := ih _ leftShort below rfl
        rwa [List.take_take, Nat.min_eq_left left] at start
      · have past : splitPoint new.length < old.length := by omega
        obtain ⟨shared, rest, below⟩ := rebuilt.right sized binding lt past
        have start := ih _ rightShort below rfl
        rw [List.length_drop] at start
        calc old = old.take (splitPoint new.length) ++ old.drop (splitPoint new.length) :=
              (List.take_append_drop _ _).symm
          _ = new.take (splitPoint new.length) ++
                (new.drop (splitPoint new.length)).take (old.length - splitPoint new.length) := by
              rw [shared, start]
          _ = new.take old.length := by
              rw [← List.take_add, Nat.add_sub_cancel' past.le]
    · obtain ⟨-, -, oldSized, newSized, length, oldSub, newSub, -, reached⟩ := rebuilt
      rw [same] at length reached
      have noSiblings : siblings = [] := List.eq_nil_of_length_eq_zero (by simpa using length)
      subst noSiblings
      simp only [extensions_self, List.reverse_nil, List.zip_nil_right, rebuild, List.foldl_nil,
        Prod.mk.injEq] at reached
      rw [same, List.take_length]
      exact root_binding sized binding same oldSized newSized oldSub newSub (reached.1.symm.trans reached.2)

end Soundness

end MerkleTree
