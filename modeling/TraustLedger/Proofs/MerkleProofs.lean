import TraustLedger.Integrity.Merkle
import TraustLedger.Library.Sha256

namespace LedgerProof

open Hashing MerkleTree Sha256 LedgerModel

variable (H : HashFunction)

def Digest (value : Bytes) : Prop := value.length = 32

def leafMessage (entry : Bytes) : Bytes := leafPrefix ++ entry
def nodeMessage (children : Bytes × Bytes) : Bytes := nodePrefix ++ children.1 ++ children.2

def rootMessages (entries : List Bytes) : List Bytes :=
  entries.map leafMessage ++
    (rootQueries (nodeHash H) (H.digest []) (entries.map (leafHash H))).map nodeMessage

def inclusionMessages (entry : Bytes) (index size : Nat) (proof : List Bytes) : List Bytes :=
  leafMessage entry ::
    (climbQueries (nodeHash H) (leafHash H entry) ((turns index size).reverse.zip proof)).map nodeMessage

def consistencyMessages (oldRoot : Bytes) (m n : Nat) (proof : List Bytes) : List Bytes :=
  match if m &&& (m - 1) = 0 then oldRoot :: proof else proof with
  | [] => []
  | seed :: siblings =>
    (rebuildQueries (nodeHash H) (seed, seed) ((strippedWalk (m - 1) (n - 1)).zip siblings)).map
      nodeMessage

variable {H}

theorem nodeHash_digest (left right : Bytes) : Digest (nodeHash H left right) :=
  H.digest_length _

theorem leafHash_digest (entries : List Bytes) :
    ∀ leaf ∈ entries.map (leafHash H), Digest leaf := by
  intro leaf member
  obtain ⟨entry, -, rfl⟩ := List.mem_map.mp member
  exact H.digest_length _

/-- Children may be given at any width; one of digest width on the claimed side is enough to know
    where the concatenation splits. -/
theorem nodeHash_binding {messages : List Bytes} (free : CollisionFree H messages) :
    Binding (nodeHash H) Digest {children | nodeMessage children ∈ messages} := by
  intro claimed claimedMem honest honestMem claimedSized leftSized rightSized same
  have preimage := free _ claimedMem _ honestMem same
  simp only [nodeMessage, List.append_assoc] at preimage
  have joined := List.append_cancel_left preimage
  have total := congrArg List.length joined
  simp only [List.length_append] at total
  unfold Digest at claimedSized leftSized rightSized
  have children := List.append_inj joined (by omega)
  exact Prod.ext children.1 children.2

theorem leafHash_binding {messages : List Bytes} (free : CollisionFree H messages)
    {left right : Bytes} (leftMem : leafMessage left ∈ messages)
    (rightMem : leafMessage right ∈ messages) (same : leafHash H left = leafHash H right) :
    left = right :=
  List.append_cancel_left (free _ leftMem _ rightMem same)

theorem leafHashes_binding {messages : List Bytes} (free : CollisionFree H messages)
    {left right : List Bytes} (leftMem : ∀ entry ∈ left, leafMessage entry ∈ messages)
    (rightMem : ∀ entry ∈ right, leafMessage entry ∈ messages)
    (same : left.map (leafHash H) = right.map (leafHash H)) : left = right := by
  induction left generalizing right with
  | nil => simpa using same.symm
  | cons entry rest ih =>
    match right, same with
    | other :: others, same =>
      simp only [List.map_cons, List.cons.injEq] at same
      have head := leafHash_binding free (leftMem entry (by simp)) (rightMem other (by simp)) same.1
      have tail := ih (fun e member => leftMem e (by simp [member]))
        (fun e member => rightMem e (by simp [member])) same.2
      rw [head, tail]

theorem leafMessage_mem (entries : List Bytes) :
    ∀ entry ∈ entries, leafMessage entry ∈ rootMessages H entries :=
  fun _ member => List.mem_append_left _ (List.mem_map_of_mem member)

theorem rootQuery_mem (entries : List Bytes) :
    ∀ q ∈ rootQueries (nodeHash H) (H.digest []) (entries.map (leafHash H)),
      nodeMessage q ∈ rootMessages H entries :=
  fun _ member => List.mem_append_right _ (List.mem_map_of_mem member)

theorem computeRoot_binding {messages : List Bytes} (free : CollisionFree H messages)
    {left right : List Bytes} (length : left.length = right.length)
    (leftSub : rootMessages H left ⊆ messages) (rightSub : rootMessages H right ⊆ messages)
    (same : computeRoot H left = computeRoot H right) : left = right := by
  apply leafHashes_binding free (fun e member => leftSub (leafMessage_mem left e member))
    (fun e member => rightSub (leafMessage_mem right e member))
  exact root_binding nodeHash_digest (nodeHash_binding free) (by simpa using length)
    (leafHash_digest left) (leafHash_digest right)
    (fun q member => leftSub (rootQuery_mem left q member))
    (fun q member => rightSub (rootQuery_mem right q member)) same

theorem hashes_apart {messages : List Bytes} (free : CollisionFree H messages) (emptyMem : [] ∈ messages)
    {entries : List Bytes} (leafMem : ∀ entry ∈ entries, leafMessage entry ∈ messages) :
    Apart (nodeHash H) (H.digest []) {children | nodeMessage children ∈ messages}
      {leaf | leaf ∈ entries.map (leafHash H)} := by
  constructor
  · intro q recorded same
    have equal := free _ recorded _ emptyMem same
    simp [nodeMessage, nodePrefix] at equal
  · intro q recorded leaf member same
    obtain ⟨entry, known, rfl⟩ := List.mem_map.mp member
    have equal := free _ recorded _ (leafMem entry known) same
    simp [nodeMessage, nodePrefix, leafMessage, leafPrefix] at equal
  · intro leaf member same
    obtain ⟨entry, known, rfl⟩ := List.mem_map.mp member
    have equal := free _ (leafMem entry known) _ emptyMem same
    simp [leafMessage, leafPrefix] at equal

theorem computeRoot_injective {messages : List Bytes} (free : CollisionFree H messages) (emptyMem : [] ∈ messages)
    {left right : List Bytes} (leftSub : rootMessages H left ⊆ messages) (rightSub : rootMessages H right ⊆ messages)
    (same : computeRoot H left = computeRoot H right) : left = right := by
  have leftMem := fun e member => leftSub (leafMessage_mem left e member)
  have rightMem := fun e member => rightSub (leafMessage_mem right e member)
  have bothMem : ∀ entry ∈ left ++ right, leafMessage entry ∈ messages := by
    intro entry member
    rcases List.mem_append.mp member with member | member
    · exact leftMem entry member
    · exact rightMem entry member
  apply leafHashes_binding free leftMem rightMem
  refine root_injective nodeHash_digest (nodeHash_binding free) (hashes_apart free emptyMem bothMem)
    (leafHash_digest left) (leafHash_digest right) ?_ ?_ (fun q member => leftSub (rootQuery_mem left q member))
    (fun q member => rightSub (rootQuery_mem right q member)) same
  · intro leaf member
    simp only [Set.mem_ofPred_eq, List.map_append, List.mem_append]
    exact Or.inl member
  · intro leaf member
    simp only [Set.mem_ofPred_eq, List.map_append, List.mem_append]
    exact Or.inr member

theorem inclusionProof_ok {entries : List Bytes} {index : Nat} (bound : index < entries.length) :
    inclusionProof H entries index =
      .ok (path (nodeHash H) (H.digest []) (entries.map (leafHash H)) index) := by
  simp [inclusionProof, bound]

theorem verifyInclusion_iff {root entry : Bytes} {index size : Nat} (bound : index < size)
    (proof : List Bytes) :
    verifyInclusion H root entry index size proof = true ↔
      proof.length = (turns index size).length ∧
        climb (nodeHash H) (leafHash H entry) ((turns index size).reverse.zip proof) = root := by
  have inRange : (0 : Int) ≤ index ∧ (index : Int) < size := by omega
  rw [verifyInclusion, if_pos inRange]
  by_cases one : size = 1
  · subst one
    rw [if_pos (by rfl), @turns_small index 1 (by omega)]
    cases proof <;> simp [climb]
  · have many : ¬ (size : Int) = 1 := by omega
    rw [if_neg many]
    simp only [Int.toNat_natCast]
    split
    · rename_i differ
      simp only [Bool.false_eq_true, false_iff, not_and]
      intro same
      exact absurd same.symm differ
    · rename_i same
      simp only [ne_eq, Decidable.not_not] at same
      simp [same]

theorem verifyInclusion_complete {entries : List Bytes} {index : Nat} {entry : Bytes}
    (at_index : entries[index]? = some entry) :
    verifyInclusion H (computeRoot H entries) entry index entries.length
      (path (nodeHash H) (H.digest []) (entries.map (leafHash H)) index) = true := by
  have bound : index < entries.length := (List.getElem?_eq_some_iff.mp at_index).1
  rw [verifyInclusion_iff bound]
  have leafAt : (entries.map (leafHash H))[index]? = some (leafHash H entry) := by simp [at_index]
  have length := path_length (nodeHash H) (H.digest []) (entries.map (leafHash H)) index
  have reached := climb_path (nodeHash H) (H.digest []) _ index _ leafAt
  rw [List.length_map] at length reached
  exact ⟨length, reached⟩

theorem verifyInclusion_sound {messages : List Bytes} (free : CollisionFree H messages)
    {entries : List Bytes} {index : Nat} {entry : Bytes} {proof : List Bytes}
    (bound : index < entries.length) (rootSub : rootMessages H entries ⊆ messages)
    (proofSub : inclusionMessages H entry index entries.length proof ⊆ messages)
    (accepted : verifyInclusion H (computeRoot H entries) entry index entries.length proof = true) :
    entries[index]? = some entry ∧ inclusionProof H entries index = .ok proof := by
  obtain ⟨length, reached⟩ := (verifyInclusion_iff bound proof).mp accepted
  have leaves : (entries.map (leafHash H)).length = entries.length := List.length_map _
  have climbed : Climbed (nodeHash H) (H.digest []) Digest {children | nodeMessage children ∈ messages}
      (leafHash H entry) (entries.map (leafHash H)) proof index := by
    refine ⟨by rw [leaves]; exact bound, leafHash_digest entries, H.digest_length _, by rw [leaves]; exact length,
      fun q member => rootSub (rootQuery_mem entries q member), ?_, by rw [leaves]; exact reached⟩
    rw [leaves]
    exact fun q member => proofSub (List.mem_cons_of_mem _ (List.mem_map_of_mem member))
  have opened := climb_sound nodeHash_digest (nodeHash_binding free) climbed
  refine ⟨?_, by rw [inclusionProof_ok bound, opened.2]⟩
  have leafAt : (entries.map (leafHash H))[index]? = some (leafHash H entry) := opened.1
  rw [List.getElem?_map, List.getElem?_eq_getElem bound, Option.map_some, Option.some.injEq] at leafAt
  rw [List.getElem?_eq_getElem bound]
  congr 1
  exact leafHash_binding free (rootSub (leafMessage_mem entries _ (List.getElem_mem bound)))
    (proofSub (by simp [inclusionMessages])) leafAt

/-- An inclusion proof is accepted for its own entry and, short of a collision among the byte strings
    hashed for the root and for the verification, for nothing else. -/
theorem verifyInclusion_exact (H : HashFunction) (entries : List Bytes) (index : Nat)
    (bound : index < entries.length) (entry : Bytes) (proof : List Bytes) :
    (entries[index]? = some entry ∧ inclusionProof H entries index = .ok proof →
      verifyInclusion H (computeRoot H entries) entry index entries.length proof = true) ∧
    (verifyInclusion H (computeRoot H entries) entry index entries.length proof = true →
      (entries[index]? = some entry ∧ inclusionProof H entries index = .ok proof) ∨
      ∃ pair, findCollision H (rootMessages H entries ++
        inclusionMessages H entry index entries.length proof) = some pair ∧ IsCollision H pair) := by
  constructor
  · rintro ⟨at_index, honest⟩
    rw [inclusionProof_ok bound, Except.ok.injEq] at honest
    rw [← honest]
    exact verifyInclusion_complete at_index
  · intro accepted
    exact holds_or_findCollision fun free => verifyInclusion_sound free bound
      (List.subset_append_left _ _) (List.subset_append_right _ _) accepted

theorem verifyInclusion_second_of_three :
    1 < 3 ∧ ∃ proof, inclusionProof sha256 [[1], [2], [3]] 1 = .ok proof ∧
      verifyInclusion sha256 (computeRoot sha256 [[1], [2], [3]]) [2] 1 3 proof = true := by
  have honest := @inclusionProof_ok sha256 [[1], [2], [3]] 1 (by decide)
  exact ⟨by decide, _, honest,
    (verifyInclusion_exact sha256 [[1], [2], [3]] 1 (by decide) [2] _).1 ⟨rfl, honest⟩⟩

/-- The loop accepts exactly the sibling lists of the walk's length and folds them along it. -/
theorem consistencyLoop_walk (nodes : List Bytes) (fn sn : Nat) (firstRoot secondRoot a b : Bytes) :
    consistencyLoop H nodes fn sn firstRoot secondRoot = some (0, a, b) ↔
      nodes.length = (walk fn sn).length ∧
        rebuild (nodeHash H) (firstRoot, secondRoot) ((walk fn sn).zip nodes) = (a, b) := by
  induction nodes generalizing fn sn firstRoot secondRoot with
  | nil =>
    by_cases done : sn = 0
    · simp [consistencyLoop, done, rebuild]
    · have pending : (walk fn sn).length ≠ 0 := by
        rw [walk]
        simp only [done, dite_false]
        split <;> simp
      simp [consistencyLoop, done, pending.symm]
  | cons node nodes ih =>
    by_cases done : sn = 0
    · simp [consistencyLoop, done]
    · rw [consistencyLoop, if_neg done, walk, dif_neg done]
      split
      · rw [ih]
        simp [rebuild, extend]
      · rw [ih]
        simp [rebuild, extend]

theorem verifyConsistency_iff {oldRoot newRoot : Bytes} {m n : Nat} (positive : 0 < m) (lt : m < n)
    (proof : List Bytes) :
    verifyConsistency H oldRoot newRoot m n proof = true ↔
      ∃ seed siblings, (if m &&& (m - 1) = 0 then oldRoot :: proof else proof) = seed :: siblings ∧
        siblings.length = (extensions m n).length ∧
        rebuild (nodeHash H) (seed, seed) ((extensions m n).reverse.zip siblings) =
          (oldRoot, newRoot) := by
  have inRange : ¬ ((m : Int) < 0 ∨ (n : Int) < 0 ∨ (m : Int) > n) := by omega
  rw [verifyConsistency, if_neg inRange, if_neg (by omega), if_neg (by omega)]
  simp only [Int.toNat_natCast]
  generalize (if m &&& (m - 1) = 0 then oldRoot :: proof else proof) = nodes
  match nodes with
  | [] => simp
  | seed :: siblings =>
    have steps := strippedWalk_extensions positive lt
    have loop := consistencyLoop_walk (H := H) siblings (shiftWhileOdd (m - 1) (n - 1)).1
      (shiftWhileOdd (m - 1) (n - 1)).2 seed seed oldRoot newRoot
    rw [strippedWalk] at steps
    rw [steps, List.length_reverse] at loop
    have headed : (∃ first rest, seed :: siblings = first :: rest ∧
        rest.length = (extensions m n).length ∧
        rebuild (nodeHash H) (first, first) ((extensions m n).reverse.zip rest) = (oldRoot, newRoot)) ↔
        siblings.length = (extensions m n).length ∧
        rebuild (nodeHash H) (seed, seed) ((extensions m n).reverse.zip siblings) =
          (oldRoot, newRoot) := by
      constructor
      · rintro ⟨first, rest, nodes, rebuilt⟩
        cases nodes
        exact rebuilt
      · intro rebuilt
        exact ⟨seed, siblings, rfl, rebuilt⟩
    rw [headed, ← loop]
    cases ended : consistencyLoop H siblings (shiftWhileOdd (m - 1) (n - 1)).1
        (shiftWhileOdd (m - 1) (n - 1)).2 seed seed with
    | none => simp [ended]
    | some state =>
      obtain ⟨sn, firstRoot, secondRoot⟩ := state
      simp [ended, and_assoc]

theorem computeRoot_take (entries : List Bytes) (m : Nat) :
    computeRoot H (entries.take m) =
      root (nodeHash H) (H.digest []) ((entries.map (leafHash H)).take m) := by
  rw [computeRoot, mthFromLeafHashes, List.map_take]

/-- Every consistency proof the generator returns is accepted, for any hash function. -/
theorem verifyConsistency_consistencyProof (H : HashFunction) (entries : List Bytes) (m : Nat)
    (le : m ≤ entries.length) :
    ∃ proof, consistencyProof H entries m = .ok proof ∧
      verifyConsistency H (computeRoot H (entries.take m)) (computeRoot H entries) m entries.length
        proof = true := by
  have inRange : (0 : Int) ≤ m ∧ (m : Int) ≤ entries.length := by omega
  have inOrder : ¬ ((m : Int) < 0 ∨ (entries.length : Int) < 0 ∨ (m : Int) > entries.length) := by omega
  rcases Nat.eq_zero_or_pos m with rfl | positive
  · exact ⟨[], by simp [consistencyProof], by simp [verifyConsistency]⟩
  rcases le.lt_or_eq with lt | rfl
  · have trivialSize : ¬ ((m : Int) = 0 ∨ (m : Int) = entries.length) := by omega
    refine ⟨_, by rw [consistencyProof, if_pos inRange, if_neg trivialSize, Int.toNat_natCast], ?_⟩
    rw [verifyConsistency_iff positive lt, computeRoot_take]
    have leaves : (entries.map (leafHash H)).length = entries.length := List.length_map _
    have leavesLe : m ≤ (entries.map (leafHash H)).length := by omega
    by_cases power : m &&& (m - 1) = 0
    · have edge := (extensions_edge_iff positive lt).mpr power
      rw [← leaves] at edge
      have rebuilt := subproof_rebuild_complete (nodeHash H) (H.digest []) positive leavesLe edge
      rw [leaves] at rebuilt
      exact ⟨_, _, by rw [if_pos power], rebuilt.1, rebuilt.2⟩
    · have off : ¬ ∀ e ∈ extensions m (entries.map (leafHash H)).length, e = true := by
        rw [leaves, extensions_edge_iff positive lt]
        exact power
      obtain ⟨seed, siblings, proof, length, rebuilt⟩ :=
        subproof_rebuild (nodeHash H) (H.digest []) positive leavesLe
      rw [leaves] at length rebuilt
      exact ⟨seed, siblings, by rw [if_neg power, subproof_off_edge _ _ positive leavesLe off, proof],
        length, rebuilt⟩
  · refine ⟨[], by simp [consistencyProof], ?_⟩
    have nonzero : ¬ (entries.length : Int) = 0 := by omega
    rw [verifyConsistency, if_neg inOrder, if_neg nonzero]
    simp

theorem verifyConsistency_two_of_three :
    2 ≤ 3 ∧ ∃ proof, consistencyProof sha256 [[1], [2], [3]] 2 = .ok proof ∧
      verifyConsistency sha256 (computeRoot sha256 [[1], [2]]) (computeRoot sha256 [[1], [2], [3]]) 2 3
        proof = true :=
  ⟨by decide, verifyConsistency_consistencyProof sha256 [[1], [2], [3]] 2 (by decide)⟩

theorem verifyConsistency_prefix {messages : List Bytes} (free : CollisionFree H messages)
    {old new proof : List Bytes} (oldSub : rootMessages H old ⊆ messages)
    (newSub : rootMessages H new ⊆ messages)
    (proofSub : consistencyMessages H (computeRoot H old) old.length new.length proof ⊆ messages)
    (accepted : verifyConsistency H (computeRoot H old) (computeRoot H new) old.length new.length
      proof = true) : old = new.take old.length := by
  have ordered : old.length ≤ new.length := by
    by_contra larger
    rw [verifyConsistency, if_pos (by omega)] at accepted
    cases accepted
  rcases Nat.eq_zero_or_pos old.length with empty | positive
  · simp [List.eq_nil_of_length_eq_zero empty]
  rcases ordered.lt_or_eq with lt | same
  · obtain ⟨seed, siblings, nodes, length, rebuilt⟩ := (verifyConsistency_iff positive lt proof).mp accepted
    have oldLeaves : (old.map (leafHash H)).length = old.length := List.length_map _
    have newLeaves : (new.map (leafHash H)).length = new.length := List.length_map _
    have stepSub : ∀ q ∈ rebuildQueries (nodeHash H) (seed, seed)
        ((extensions old.length new.length).reverse.zip siblings), nodeMessage q ∈ messages := by
      intro q member
      apply proofSub
      rw [consistencyMessages, nodes, strippedWalk_extensions positive lt]
      exact List.mem_map_of_mem member
    have accepted : Rebuilt (nodeHash H) (H.digest []) Digest {children | nodeMessage children ∈ messages} seed
        (old.map (leafHash H)) (new.map (leafHash H)) siblings := by
      refine ⟨by omega, by omega, leafHash_digest old, leafHash_digest new, ?_,
        fun q member => oldSub (rootQuery_mem old q member), fun q member => newSub (rootQuery_mem new q member),
        ?_, ?_⟩
      · rw [oldLeaves, newLeaves]
        exact length
      · rw [oldLeaves, newLeaves]
        exact stepSub
      · rw [oldLeaves, newLeaves]
        exact rebuilt
    have hashed := rebuild_sound nodeHash_digest (nodeHash_binding free) accepted
    rw [oldLeaves, ← List.map_take] at hashed
    exact leafHashes_binding free (fun e member => oldSub (leafMessage_mem old e member))
      (fun e member => newSub (leafMessage_mem new e (List.mem_of_mem_take member))) hashed
  · have inOrder : ¬ ((old.length : Int) < 0 ∨ (new.length : Int) < 0 ∨ (old.length : Int) > new.length) := by
      omega
    rw [verifyConsistency, if_neg inOrder, if_neg (by omega), if_pos (by omega)] at accepted
    simp only [Bool.and_eq_true, beq_iff_eq] at accepted
    rw [same, List.take_length]
    exact computeRoot_binding free same oldSub newSub accepted.2

/-- An accepted consistency proof, of any count and any widths, means the old entries are a prefix of
    the new ones, or two of the byte strings hashed on the way collide and are found. -/
theorem verifyConsistency_sound (H : HashFunction) (old new proof : List Bytes)
    (accepted : verifyConsistency H (computeRoot H old) (computeRoot H new) old.length new.length
      proof = true) :
    old = new.take old.length ∨
      ∃ pair, findCollision H (rootMessages H old ++ rootMessages H new ++
        consistencyMessages H (computeRoot H old) old.length new.length proof) = some pair ∧
        IsCollision H pair := by
  apply holds_or_findCollision
  intro free
  refine verifyConsistency_prefix free ?_ ?_ ?_ accepted
  · exact fun m member => List.mem_append_left _ (List.mem_append_left _ member)
  · exact fun m member => List.mem_append_left _ (List.mem_append_right _ member)
  · exact fun m member => List.mem_append_right _ member

theorem verifyConsistency_sound_two_three :
    verifyConsistency sha256 (computeRoot sha256 [[1], [2]]) (computeRoot sha256 [[1], [2], [3]]) 2 3
      [leafHash sha256 [3]] = true ∧
    (([[1], [2]] : List Bytes) = List.take 2 [[1], [2], [3]] ∨
      ∃ pair, findCollision sha256 (rootMessages sha256 [[1], [2]] ++ rootMessages sha256 [[1], [2], [3]] ++
        consistencyMessages sha256 (computeRoot sha256 [[1], [2]]) 2 3 [leafHash sha256 [3]]) = some pair ∧
        IsCollision sha256 pair) := by
  have accepted : verifyConsistency sha256 (computeRoot sha256 [[1], [2]])
      (computeRoot sha256 [[1], [2], [3]]) 2 3 [leafHash sha256 [3]] = true := by
    decide +kernel
  exact ⟨accepted, verifyConsistency_sound sha256 [[1], [2]] [[1], [2], [3]] _ accepted⟩

end LedgerProof
