import TraustLedger.Library.MerkleTree
import Mathlib.Data.List.Induction

namespace MerkleTree

def turns (index size : Nat) : List Bool :=
  if _ : 2 ≤ size then
    if index < splitPoint size then true :: turns index (splitPoint size)
    else false :: turns (index - splitPoint size) (size - splitPoint size)
  else []
termination_by size
decreasing_by
  · exact splitPoint_lt ‹2 ≤ size›
  · have := splitPoint_pos ‹2 ≤ size›
    omega

theorem turns_left {index size : Nat} (large : 2 ≤ size) (left : index < splitPoint size) :
    turns index size = true :: turns index (splitPoint size) := by
  rw [turns]
  simp [large, left]

theorem turns_right {index size : Nat} (large : 2 ≤ size) (right : ¬ index < splitPoint size) :
    turns index size = false :: turns (index - splitPoint size) (size - splitPoint size) := by
  rw [turns]
  simp [large, right]

theorem turns_ne_nil {index size : Nat} (large : 2 ≤ size) : turns index size ≠ [] := by
  by_cases left : index < splitPoint size
  · simp [turns_left large left]
  · simp [turns_right large left]

theorem turns_small {index size : Nat} (small : ¬ 2 ≤ size) : turns index size = [] := by
  rw [turns]
  simp [small]

section Path

variable {δ : Type} (node : δ → δ → δ) (empty : δ)

def path (leaves : List δ) (index : Nat) : List δ :=
  if _ : 2 ≤ leaves.length then
    let k := splitPoint leaves.length
    if index < k then path (leaves.take k) index ++ [root node empty (leaves.drop k)]
    else path (leaves.drop k) (index - k) ++ [root node empty (leaves.take k)]
  else []
termination_by leaves.length
decreasing_by
  · exact (split_halves ‹2 ≤ leaves.length›).2.2.1
  · exact (split_halves ‹2 ≤ leaves.length›).2.2.2

theorem path_left {leaves : List δ} {index : Nat} (large : 2 ≤ leaves.length)
    (left : index < splitPoint leaves.length) :
    path node empty leaves index =
      path node empty (leaves.take (splitPoint leaves.length)) index ++
        [root node empty (leaves.drop (splitPoint leaves.length))] := by
  rw [path]
  simp [large, left]

theorem path_right {leaves : List δ} {index : Nat} (large : 2 ≤ leaves.length)
    (right : ¬ index < splitPoint leaves.length) :
    path node empty leaves index =
      path node empty (leaves.drop (splitPoint leaves.length))
          (index - splitPoint leaves.length) ++
        [root node empty (leaves.take (splitPoint leaves.length))] := by
  rw [path]
  simp [large, right]

theorem path_small {leaves : List δ} {index : Nat} (small : ¬ 2 ≤ leaves.length) :
    path node empty leaves index = [] := by
  rw [path]
  simp [small]

def ascend (computed : δ) (step : Bool × δ) : δ :=
  if step.1 then node computed step.2 else node step.2 computed

def climb (start : δ) (steps : List (Bool × δ)) : δ := steps.foldl (ascend node) start

def climbQueries (start : δ) : List (Bool × δ) → List (δ × δ)
  | [] => []
  | step :: steps =>
    (if step.1 then (start, step.2) else (step.2, start)) ::
      climbQueries (ascend node start step) steps

theorem climb_snoc (start : δ) (steps : List (Bool × δ)) (step : Bool × δ) :
    climb node start (steps ++ [step]) = ascend node (climb node start steps) step := by
  simp [climb]

theorem climbQueries_snoc (start : δ) (steps : List (Bool × δ)) (step : Bool × δ) :
    climbQueries node start (steps ++ [step]) =
      climbQueries node start steps ++
        [if step.1 then (climb node start steps, step.2)
          else (step.2, climb node start steps)] := by
  induction steps generalizing start with
  | nil => simp [climbQueries, climb]
  | cons head tail ih =>
    simp only [List.cons_append, climbQueries, ih, climb, List.foldl_cons]

theorem zip_reverse_snoc (turn : Bool) (rest : List Bool) (siblings : List δ) (sibling : δ)
    (length : rest.length = siblings.length) :
    (turn :: rest).reverse.zip (siblings ++ [sibling]) =
      rest.reverse.zip siblings ++ [(turn, sibling)] := by
  rw [List.reverse_cons, List.zip_append (by simpa using length)]
  rfl

theorem path_length (leaves : List δ) (index : Nat) :
    (path node empty leaves index).length = (turns index leaves.length).length := by
  induction hn : leaves.length using Nat.strongRecOn generalizing leaves index with
  | ind n ih =>
    subst hn
    by_cases large : 2 ≤ leaves.length
    · obtain ⟨-, -, leftShort, rightShort⟩ := split_halves large
      have leftLength := take_split_length large
      by_cases left : index < splitPoint leaves.length
      · have below := ih _ leftShort _ index rfl
        rw [leftLength] at below
        rw [path_left node empty large left, turns_left large left]
        simp [below]
      · have below := ih _ rightShort _ (index - splitPoint leaves.length) rfl
        rw [List.length_drop] at below
        rw [path_right node empty large left, turns_right large left]
        simp [below]
    · rw [path_small node empty large, turns_small large]
      rfl

theorem climb_path (leaves : List δ) (index : Nat) (leaf : δ) (at_index : leaves[index]? = some leaf) :
    climb node leaf ((turns index leaves.length).reverse.zip (path node empty leaves index)) =
      root node empty leaves := by
  induction hn : leaves.length using Nat.strongRecOn generalizing leaves index with
  | ind n ih =>
    subst hn
    by_cases large : 2 ≤ leaves.length
    · obtain ⟨-, -, leftShort, rightShort⟩ := split_halves large
      have leftLength := take_split_length large
      by_cases left : index < splitPoint leaves.length
      · have inLeft : (leaves.take (splitPoint leaves.length))[index]? = some leaf := by
          rw [List.getElem?_take_of_lt left, at_index]
        have below := ih _ leftShort _ index inLeft rfl
        have length := path_length node empty (leaves.take (splitPoint leaves.length)) index
        rw [leftLength] at below length
        rw [path_left node empty large left, turns_left large left,
          zip_reverse_snoc _ _ _ _ length.symm, climb_snoc, below, root_split node empty large]
        rfl
      · have inRight : (leaves.drop (splitPoint leaves.length))[index - splitPoint leaves.length]? =
            some leaf := by
          rw [List.getElem?_drop, Nat.add_sub_cancel' (Nat.le_of_not_lt left), at_index]
        have below := ih _ rightShort _ (index - splitPoint leaves.length) inRight rfl
        have length := path_length node empty (leaves.drop (splitPoint leaves.length))
          (index - splitPoint leaves.length)
        rw [List.length_drop] at below length
        rw [path_right node empty large left, turns_right large left,
          zip_reverse_snoc _ _ _ _ length.symm, climb_snoc, below, root_split node empty large]
        rfl
    · match leaves, index, at_index with
      | [only], 0, at_index =>
        rw [turns_small large]
        simpa [climb] using at_index.symm
      | _ :: _ :: _, _, _ => simp at large

end Path

section Soundness

variable {δ : Type} {node : δ → δ → δ} {empty : δ} {Sized : δ → Prop} {queries : Set (δ × δ)}

theorem sized_climb (sized : ∀ a b, Sized (node a b)) {start : δ} (startSized : Sized start)
    (steps : List (Bool × δ)) : Sized (climb node start steps) := by
  induction steps using List.reverseRecOn with
  | nil => exact startSized
  | append_singleton steps step ih =>
    rw [climb_snoc, ascend]
    split <;> exact sized _ _

theorem climb_top (sized : ∀ a b, Sized (node a b)) (binding : Binding node Sized queries)
    {start left right top : δ} {steps : List (Bool × δ)} {turn : Bool} (startSized : Sized start)
    (leftSized : Sized left) (rightSized : Sized right) (honest : (left, right) ∈ queries)
    (climbSub : ∀ q ∈ climbQueries node start (steps ++ [(turn, top)]), q ∈ queries)
    (reached : climb node start (steps ++ [(turn, top)]) = node left right) :
    (if turn then (climb node start steps, top) else (top, climb node start steps)) =
      (left, right) := by
  have computedSized := sized_climb sized startSized steps
  rw [climbQueries_snoc] at climbSub
  rw [climb_snoc, ascend] at reached
  have last := climbSub _ (List.mem_append_right _ (List.mem_singleton_self _))
  cases turn with
  | true =>
    exact binding _ last _ honest (.inl computedSized) leftSized rightSized reached
  | false =>
    exact binding _ last _ honest (.inr computedSized) leftSized rightSized reached

/-- An accepted climb: it leads from `start` to the root of `leaves`, and everything hashed on the way is
    among the recorded queries. -/
structure Climbed (node : δ → δ → δ) (empty : δ) (Sized : δ → Prop) (queries : Set (δ × δ)) (start : δ)
    (leaves siblings : List δ) (index : Nat) : Prop where
  bound : index < leaves.length
  leavesSized : ∀ leaf ∈ leaves, Sized leaf
  startSized : Sized start
  length : siblings.length = (turns index leaves.length).length
  rootSub : ∀ q ∈ rootQueries node empty leaves, q ∈ queries
  climbSub : ∀ q ∈ climbQueries node start ((turns index leaves.length).reverse.zip siblings), q ∈ queries
  reached : climb node start ((turns index leaves.length).reverse.zip siblings) = root node empty leaves

theorem Climbed.siblings_snoc {start : δ} {leaves siblings : List δ} {index : Nat}
    (climbed : Climbed node empty Sized queries start leaves siblings index) (large : 2 ≤ leaves.length) :
    ∃ rest top, siblings = rest ++ [top] := by
  have nonempty : siblings ≠ [] := by
    rintro rfl
    exact turns_ne_nil large (List.eq_nil_of_length_eq_zero climbed.length.symm)
  obtain ⟨rest, top, snoc⟩ := (List.eq_nil_or_concat siblings).resolve_left nonempty
  exact ⟨rest, top, by rw [snoc, List.concat_eq_append]⟩

theorem Climbed.left (sized : ∀ a b, Sized (node a b)) (binding : Binding node Sized queries) {start : δ}
    {leaves siblings : List δ} {index : Nat} (climbed : Climbed node empty Sized queries start leaves siblings index)
    (large : 2 ≤ leaves.length) (left : index < splitPoint leaves.length) :
    ∃ rest, siblings = rest ++ [root node empty (leaves.drop (splitPoint leaves.length))] ∧
      Climbed node empty Sized queries start (leaves.take (splitPoint leaves.length)) rest index := by
  obtain ⟨rest, top, rfl⟩ := climbed.siblings_snoc large
  obtain ⟨bound, leavesSized, startSized, length, rootSub, climbSub, reached⟩ := climbed
  obtain ⟨first, second, -, -⟩ := split_halves large
  obtain ⟨rootQuery, leftSub, -⟩ := subset_of_split large rootSub
  obtain ⟨leftSized, rightSized⟩ := sized_halves leavesSized (splitPoint leaves.length)
  have leftLength := take_split_length large
  rw [root_split node empty large] at reached
  rw [turns_left large left] at length climbSub reached
  have restLength : rest.length = (turns index (splitPoint leaves.length)).length := by
    simpa using length
  rw [zip_reverse_snoc _ _ _ _ restLength.symm] at climbSub reached
  have children := climb_top sized binding startSized (sized_root sized first leftSized)
    (sized_root sized second rightSized) rootQuery climbSub reached
  simp only [if_true, Prod.mk.injEq] at children
  rw [climbQueries_snoc] at climbSub
  refine ⟨rest, by rw [children.2], ?_, leftSized, startSized, ?_, leftSub, ?_, ?_⟩
  · rw [leftLength]
    exact left
  · rw [leftLength]
    exact restLength
  · rw [leftLength]
    exact fun q member => climbSub q (List.mem_append_left _ member)
  · rw [leftLength]
    exact children.1

theorem Climbed.right (sized : ∀ a b, Sized (node a b)) (binding : Binding node Sized queries) {start : δ}
    {leaves siblings : List δ} {index : Nat} (climbed : Climbed node empty Sized queries start leaves siblings index)
    (large : 2 ≤ leaves.length) (right : ¬ index < splitPoint leaves.length) :
    ∃ rest, siblings = rest ++ [root node empty (leaves.take (splitPoint leaves.length))] ∧
      Climbed node empty Sized queries start (leaves.drop (splitPoint leaves.length)) rest
        (index - splitPoint leaves.length) := by
  obtain ⟨rest, top, rfl⟩ := climbed.siblings_snoc large
  obtain ⟨bound, leavesSized, startSized, length, rootSub, climbSub, reached⟩ := climbed
  obtain ⟨first, second, -, -⟩ := split_halves large
  obtain ⟨rootQuery, -, rightSub⟩ := subset_of_split large rootSub
  obtain ⟨leftSized, rightSized⟩ := sized_halves leavesSized (splitPoint leaves.length)
  have rightLength := List.length_drop (i := splitPoint leaves.length) (l := leaves)
  rw [root_split node empty large] at reached
  rw [turns_right large right] at length climbSub reached
  have restLength : rest.length = (turns (index - splitPoint leaves.length)
      (leaves.length - splitPoint leaves.length)).length := by
    simpa using length
  rw [zip_reverse_snoc _ _ _ _ restLength.symm] at climbSub reached
  have children := climb_top sized binding startSized (sized_root sized first leftSized)
    (sized_root sized second rightSized) rootQuery climbSub reached
  simp only [Bool.false_eq_true, if_false, Prod.mk.injEq] at children
  rw [climbQueries_snoc] at climbSub
  refine ⟨rest, by rw [children.1], by omega, rightSized, startSized, ?_, rightSub, ?_, ?_⟩
  · rw [rightLength]
    exact restLength
  · rw [rightLength]
    exact fun q member => climbSub q (List.mem_append_left _ member)
  · rw [rightLength]
    exact children.2

/-- Soundness: a climb that ends in the root of `leaves` started at the leaf and used the sibling
    path, whatever siblings it was given. -/
theorem climb_sound (sized : ∀ a b, Sized (node a b)) (binding : Binding node Sized queries) {start : δ}
    {leaves siblings : List δ} {index : Nat}
    (climbed : Climbed node empty Sized queries start leaves siblings index) :
    leaves[index]? = some start ∧ siblings = path node empty leaves index := by
  -- the topmost sibling is the last one, so each level peels the list from its end
  induction hn : leaves.length using Nat.strongRecOn generalizing leaves index siblings with
  | ind n ih =>
    subst hn
    by_cases large : 2 ≤ leaves.length
    · obtain ⟨-, -, leftShort, rightShort⟩ := split_halves large
      by_cases left : index < splitPoint leaves.length
      · obtain ⟨rest, peeled, below⟩ := climbed.left sized binding large left
        obtain ⟨leaf, siblingPath⟩ := ih _ leftShort below rfl
        refine ⟨by rw [← leaf, List.getElem?_take_of_lt left], ?_⟩
        rw [path_left node empty large left, ← siblingPath, peeled]
      · obtain ⟨rest, peeled, below⟩ := climbed.right sized binding large left
        obtain ⟨leaf, siblingPath⟩ := ih _ rightShort below rfl
        refine ⟨?_, ?_⟩
        · rw [← leaf, List.getElem?_drop, Nat.add_sub_cancel' (Nat.le_of_not_lt left)]
        · rw [path_right node empty large left, ← siblingPath, peeled]
    · obtain ⟨bound, -, -, length, -, -, reached⟩ := climbed
      match leaves, index, bound with
      | [only], 0, _ =>
        rw [turns_small large] at length reached
        have noSiblings : siblings = [] := List.eq_nil_of_length_eq_zero length
        subst noSiblings
        refine ⟨?_, by rw [path_small node empty large]⟩
        simpa [climb] using reached.symm
      | _ :: _ :: _, _, _ => simp at large

end Soundness

end MerkleTree
