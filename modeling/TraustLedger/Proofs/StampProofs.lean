import TraustLedger.Integrity.Ledger

namespace LedgerProof

open Hashing Python Runs LedgerModel

variable {H : HashFunction}

def rawEpoch (layer : Layer) : Json := layer.metadata.getD "merkle_epoch" (.int 0)

def epochOf (layer : Layer) : Nat := ((rawEpoch layer).pyInt.getD 0).toNat

def preEpoch (layer : Layer) : List Dict := layer.events.take (epochOf layer)

def postEpoch (layer : Layer) : List Dict := layer.events.drop (epochOf layer)

section Splits

variable {left right : Layer}

theorem rawEpoch_congr (epoch : left.metadata.lookup "merkle_epoch" = right.metadata.lookup "merkle_epoch") :
    rawEpoch left = rawEpoch right := by
  rw [rawEpoch, rawEpoch, Dict.getD, Dict.getD, epoch]

variable (raw : rawEpoch left = rawEpoch right)

include raw

theorem epochOf_congr : epochOf left = epochOf right := by
  rw [epochOf, epochOf, raw]

theorem preEpoch_congr (events : left.events = right.events) : preEpoch left = preEpoch right := by
  rw [preEpoch, preEpoch, epochOf_congr raw, events]

theorem postEpoch_congr (events : left.events = right.events) : postEpoch left = postEpoch right := by
  rw [postEpoch, postEpoch, epochOf_congr raw, events]

end Splits

def stampKeys : List String :=
  ["merkle_epoch", "pre_merkle_checkpoint", "merkle_root", "merkle_size", "merkle_algorithm", "leaf_format"] ++
    signatureKeys

def stampedMetadata (H : HashFunction) (layer : Layer) : Dict :=
  withRoot (withCheckpoint H (layer.metadata.setDefault "merkle_epoch" (.int 0)) (epochOf layer)
    (preEpoch layer)) (hex (computeRoot H ((postEpoch layer).map canonicalEventBytes))) (postEpoch layer).length

theorem toInt_ok {value : Json} {n : Int} (converted : toInt value = .ok n) : value.pyInt = some n := by
  unfold toInt at converted
  split at converted
  · next m held =>
    cases converted
    exact held
  · cases converted
  · cases converted

theorem get_setDefault (d : Dict) (key k : String) (value : Json) :
    (d.setDefault key value).get k = if k = key then d.getD key value else d.get k := by
  unfold Dict.setDefault
  by_cases same : k = key
  · subst same
    cases found : d.lookup k <;> simp [Dict.has, found, Dict.get, Dict.getD]
  · split <;> simp [same]

theorem lookup_setDefault_self (d : Dict) (key : String) (value : Json) :
    (d.setDefault key value).lookup key = some (d.getD key value) := by
  unfold Dict.setDefault
  cases found : d.lookup key <;> simp [Dict.has, found, Dict.getD]

theorem requireStampableEpoch_ok {epoch : Int} {count : Nat} {u : Unit}
    (accepted : requireStampableEpoch epoch count = .ok u) :
    0 ≤ epoch ∧ (count = 0 → epoch = 0) ∧ (count ≠ 0 → epoch < count) := by
  unfold requireStampableEpoch at accepted
  obtain ⟨_, nonnegative, rest⟩ := bind_ok_iff.mp accepted
  rw [require_ok_iff] at nonnegative
  refine ⟨nonnegative, ?_, ?_⟩
  · intro empty
    rw [if_pos empty] at rest
    exact require_ok_iff.mp rest
  · intro held
    rw [if_neg held] at rest
    exact require_ok_iff.mp rest

theorem computeMerkleRoot_current (events : List Dict) :
    computeMerkleRoot H events leafFormatCurrent =
      .ok (hex (computeRoot H (events.map canonicalEventBytes)), events.length) := by
  simp [computeMerkleRoot, leafFormatCurrent, bind, Except.bind, pure, Except.pure]

/-- Everything a stamp that does not raise can do. -/
theorem stampMerkleMetadata_ok {layer stamped : Layer} {dropped : Bool}
    (accepted : stampMerkleMetadata H layer = .ok (stamped, dropped)) :
    (rawEpoch layer).pyInt = some (epochOf layer : Int) ∧
      (layer.events.length = 0 → epochOf layer = 0) ∧
      (layer.events.length ≠ 0 → epochOf layer < layer.events.length) ∧
      stamped = { layer with metadata :=
        if dropped then dropSignature (stampedMetadata H layer) else stampedMetadata H layer } ∧
      (dropped = true ↔ layer.metadata.get "merkle_root" ≠ .null ∧
        Json.pyEq (layer.metadata.get "merkle_root")
          (.str (hex (computeRoot H ((postEpoch layer).map canonicalEventBytes)))) = false) := by
  unfold stampMerkleMetadata at accepted
  obtain ⟨epoch, converted, accepted⟩ := bind_ok_iff.mp accepted
  obtain ⟨_, stampable, accepted⟩ := bind_ok_iff.mp accepted
  have raw : (layer.metadata.setDefault "merkle_epoch" (.int 0)).get "merkle_epoch" = rawEpoch layer := by
    simp [get_setDefault, rawEpoch]
  rw [raw] at converted
  have held := toInt_ok converted
  obtain ⟨nonnegative, emptyLog, insideLog⟩ := requireStampableEpoch_ok stampable
  have natural : (epochOf layer : Int) = epoch := by
    simp only [epochOf, held, Option.getD_some]
    exact Int.toNat_of_nonneg nonnegative
  subst natural
  simp only [Int.toNat_natCast, computeMerkleRoot_current, bind, Except.bind] at accepted
  refine ⟨held, by omega, by omega, ?_⟩
  have prior : (withCheckpoint H (layer.metadata.setDefault "merkle_epoch" (.int 0)) (epochOf layer)
      (layer.events.take (epochOf layer))).get "merkle_root" = layer.metadata.get "merkle_root" := by
    unfold withCheckpoint
    split <;> simp [get_setDefault]
  rw [prior] at accepted
  split at accepted
  · next moved =>
    cases accepted
    exact ⟨by simp [stampedMetadata, preEpoch, postEpoch], by simpa [postEpoch] using moved⟩
  · next kept =>
    cases accepted
    exact ⟨by simp [stampedMetadata, preEpoch, postEpoch], by simpa [postEpoch] using kept⟩

theorem get_dropSignature (metadata : Dict) (key : String) :
    (dropSignature metadata).get key = if key ∈ signatureKeys then .null else metadata.get key := by
  simp only [dropSignature, signatureKeys, List.foldl_cons, List.foldl_nil, Dict.get_remove, List.mem_cons,
    List.not_mem_nil, or_false]
  split_ifs <;> simp_all

theorem get_withCheckpoint (metadata : Dict) (epoch : Int) (events : List Dict) {key : String}
    (other : key ≠ "pre_merkle_checkpoint") : (withCheckpoint H metadata epoch events).get key = metadata.get key := by
  unfold withCheckpoint
  split <;> simp [other]

section Stamped

variable {layer stamped : Layer} {dropped : Bool} (accepted : stampMerkleMetadata H layer = .ok (stamped, dropped))

include accepted

theorem get_stamped_of_ne {key : String} (other : key ∉ stampKeys) :
    stamped.metadata.get key = layer.metadata.get key := by
  obtain ⟨-, -, -, rfl, -⟩ := stampMerkleMetadata_ok accepted
  simp only [stampKeys, List.cons_append, List.nil_append, List.mem_cons, not_or] at other
  obtain ⟨notEpoch, notCheckpoint, notRoot, notSize, notAlgorithm, notFormat, notSignature⟩ := other
  have body : (stampedMetadata H layer).get key = layer.metadata.get key := by
    simp only [stampedMetadata, withRoot, Dict.get_set, notRoot, notSize, notAlgorithm, notFormat, if_false]
    rw [get_withCheckpoint _ _ _ notCheckpoint, get_setDefault, if_neg notEpoch]
  cases dropped with
  | false => exact body
  | true =>
    simp only [if_true, get_dropSignature, notSignature, if_false]
    exact body

theorem get_stamped {key : String} (other : key ∉ signatureKeys) :
    stamped.metadata.get key = (stampedMetadata H layer).get key := by
  obtain ⟨-, -, -, rfl, -⟩ := stampMerkleMetadata_ok accepted
  cases dropped with
  | false => rfl
  | true => simp only [if_true, get_dropSignature, other, if_false]

theorem events_stamped : stamped.events = layer.events := by
  obtain ⟨-, -, -, rfl, -⟩ := stampMerkleMetadata_ok accepted
  rfl

theorem rawEpoch_stamped : rawEpoch stamped = rawEpoch layer := by
  obtain ⟨-, -, -, rfl, -⟩ := stampMerkleMetadata_ok accepted
  have body : (stampedMetadata H layer).lookup "merkle_epoch" = some (rawEpoch layer) := by
    unfold stampedMetadata withRoot withCheckpoint
    split <;> simp [lookup_setDefault_self, rawEpoch]
  have found : (if dropped then dropSignature (stampedMetadata H layer)
      else stampedMetadata H layer).lookup "merkle_epoch" = some (rawEpoch layer) := by
    cases dropped with
    | false => exact body
    | true => simpa [dropSignature, signatureKeys] using body
  unfold rawEpoch Dict.getD
  rw [found]
  rfl

theorem epochOf_stamped : epochOf stamped = epochOf layer := epochOf_congr (rawEpoch_stamped accepted)

theorem preEpoch_stamped : preEpoch stamped = preEpoch layer :=
  preEpoch_congr (rawEpoch_stamped accepted) (events_stamped accepted)

theorem postEpoch_stamped : postEpoch stamped = postEpoch layer :=
  postEpoch_congr (rawEpoch_stamped accepted) (events_stamped accepted)

theorem root_stamped : stamped.metadata.get "merkle_root" =
    .str (hex (computeRoot H ((postEpoch layer).map canonicalEventBytes))) := by
  rw [get_stamped accepted (by decide)]
  simp [stampedMetadata, withRoot]

theorem size_stamped : stamped.metadata.get "merkle_size" = .int (postEpoch layer).length := by
  rw [get_stamped accepted (by decide)]
  simp [stampedMetadata, withRoot]

theorem checkpoint_stamped (positive : 0 < epochOf layer) : stamped.metadata.get "pre_merkle_checkpoint" =
    .str (computePreEpochCheckpoint H (preEpoch layer)) := by
  rw [get_stamped accepted (by decide)]
  simp [stampedMetadata, withRoot, withCheckpoint, positive]

end Stamped

theorem rootFindings_nil {declared : Json} {computed : String} {count : Nat}
    (clean : rootFindings declared computed count = []) : declared = .str computed := by
  unfold rootFindings at clean
  split at clean
  · next same => simpa using same
  · cases clean

theorem sizeFindings_nil {declared : Json} {computed : Nat} (clean : sizeFindings declared computed = []) :
    declared = .null ∨ Json.pyEq declared (.int computed) = true := by
  unfold sizeFindings at clean
  split at clean
  · next same => exact same
  · cases clean

theorem checkpointFindings_nil {declared : Json} {epoch : Int} {events : List Dict}
    (clean : checkpointFindings H declared epoch events = []) (positive : 0 < epoch) :
    declared = .str (computePreEpochCheckpoint H events) := by
  unfold checkpointFindings at clean
  rw [if_pos positive] at clean
  split at clean
  · cases clean
  · split at clean
    · next same => simpa using same
    · cases clean

theorem verifyMerkleIntegrity_clean {layer : Layer} (clean : verifyMerkleIntegrity H layer = .ok []) :
    (rawEpoch layer).pyInt = some (epochOf layer : Int) ∧
      (0 < layer.events.length → epochOf layer < layer.events.length) ∧
      layer.metadata.get "merkle_root" = .str (hex (computeRoot H ((postEpoch layer).map canonicalEventBytes))) ∧
      (layer.metadata.get "merkle_size" = .null ∨
        Json.pyEq (layer.metadata.get "merkle_size") (.int (postEpoch layer).length) = true) ∧
      (0 < epochOf layer → layer.metadata.get "pre_merkle_checkpoint" =
        .str (computePreEpochCheckpoint H (preEpoch layer))) ∧
      verifyRestatedMetadata layer = .ok [] := by
  unfold verifyMerkleIntegrity at clean
  split at clean
  · cases clean
  obtain ⟨epoch, converted, clean⟩ := bind_ok_iff.mp clean
  split at clean
  · cases clean
  next nonnegative =>
  split at clean
  · cases clean
  next notPast =>
  split at clean
  · cases clean
  next notEqual =>
  simp only at clean
  split at clean
  · cases clean
  next known =>
  have held := toInt_ok converted
  have natural : (epochOf layer : Int) = epoch := by
    simp only [epochOf, rawEpoch, held, Option.getD_some]
    exact Int.toNat_of_nonneg (by omega)
  subst natural
  refine ⟨held, by omega, ?_⟩
  generalize (layer.metadata.getD "leaf_format" (.int 1)).pyInt.getD (-1) = leafFormat at clean known
  unfold recomputedFindings at clean
  obtain ⟨⟨computedRoot, computedSize⟩, computed, clean⟩ := bind_ok_iff.mp clean
  obtain ⟨restated, verified, clean⟩ := bind_ok_iff.mp clean
  simp only [pure, Except.pure, Except.ok.injEq, List.append_eq_nil_iff] at clean
  obtain ⟨⟨⟨⟨current, roots⟩, sizes⟩, checkpoints⟩, rfl⟩ := clean
  have format : leafFormat = leafFormatCurrent := by
    by_contra legacy
    have one : leafFormat = 1 := by
      by_contra other
      exact known ⟨other, legacy⟩
    simp [one] at current
  rw [format, Int.toNat_natCast, computeMerkleRoot_current] at computed
  cases computed
  refine ⟨rootFindings_nil roots, ?_, ?_, verified⟩
  · simpa [postEpoch] using sizeFindings_nil sizes
  · intro positive
    simpa [preEpoch] using checkpointFindings_nil checkpoints (by omega)

end LedgerProof
