import TraustLedger.Proofs.StampProofs
import TraustLedger.Proofs.MerkleProofs

namespace LedgerProof

open Hashing MerkleTree Python Runs Sha256 LedgerModel

variable (H : HashFunction)

/-- Equal, or both values the payload records as "nothing held". -/
def SameOrEmpty (left right : Json) : Prop :=
  left = right ∨ (left.truthy = false ∧ right.truthy = false)

/-- What a signature binds: the epoch, the log on both sides of it and the signed metadata. -/
structure SameSigned (left right : Layer) : Prop where
  epoch : rawEpoch left = rawEpoch right
  preEpoch : preEpoch left = preEpoch right
  postEpoch : (postEpoch left).map scrubbed = (postEpoch right).map scrubbed
  claimHashes : SameOrEmpty (left.metadata.get "claim_hashes") (right.metadata.get "claim_hashes")
  auditReport : left.metadata.get "audit_report_sha256" = right.metadata.get "audit_report_sha256"
  artifactDigests : SameOrEmpty (left.metadata.get "artifact_digests") (right.metadata.get "artifact_digests")

def signedPayloads (layers : List Layer) : List Bytes :=
  layers.filterMap fun layer => match stampMerkleMetadata H layer with
    | .ok (stamped, _) => some (merkleSignaturePayload H stamped.metadata signatureFormatCurrent)
    | .error _ => none

def signingMessages (layer : Layer) (fmt : Int) : List Bytes :=
  dumps true (.obj (signatureDocument H layer.metadata fmt)) ::
    dumps true (layer.metadata.get "claim_hashes") :: dumps true (layer.metadata.get "artifact_digests") ::
    dumps true (.arr ((preEpoch layer).map .obj)) :: rootMessages H ((postEpoch layer).map canonicalEventBytes)

def stampedLayers (layers : List Layer) : List Layer :=
  layers.filterMap fun layer => match stampMerkleMetadata H layer with
    | .ok (stamped, _) => some stamped
    | .error _ => none

def bindingMessages (layers : List Layer) (layer : Layer) : List Bytes :=
  [2, 3, signatureFormatCurrent].flatMap (signingMessages H layer) ++
    (stampedLayers H layers).flatMap fun stamped => signingMessages H stamped signatureFormatCurrent

variable {H}

theorem pyEq_int {m n : Int} : Json.pyEq (.int m) (.int n) = true ↔ m = n := by
  simp [Json.pyEq, Json.norm]

/-- A signature that verifies was checked over a payload of format 2, 3 or 4: format 1 leaves a warning. -/
theorem verifyMerkleSignature_clean {signers : Signers} {signingRequired : Bool} {layer : Layer}
    {pubkeyPath : String} {backend : SigningBackend}
    (carried : (layer.metadata.get "merkle_root_signature").truthy = true)
    (clean : verifyMerkleSignature H signers signingRequired layer (some pubkeyPath) (some backend) = .ok []) :
    ∃ fmt ∈ ([2, 3, signatureFormatCurrent] : List Int), ∃ result,
      backend.verify (merkleSignaturePayload H layer.metadata fmt)
        (layer.metadata.get "merkle_root_signature") pubkeyPath = .ok result ∧ result.valid = true := by
  unfold verifyMerkleSignature at clean
  simp only [carried, Bool.true_eq_false, if_false] at clean
  split at clean
  · cases clean
  unfold checkSignature at clean
  split at clean
  · cases clean
  obtain ⟨declared, payload, clean⟩ := bind_ok_iff.mp clean
  cases declared with
  | none => cases clean
  | some found =>
    obtain ⟨bytes, formatFindings⟩ := found
    obtain ⟨result, verified, clean⟩ := bind_ok_iff.mp clean
    by_cases valid : result.valid = true
    · rw [if_pos valid] at clean
      cases clean
      unfold declaredPayload at payload
      simp only at payload
      split at payload
      · cases payload
        exact ⟨signatureFormatCurrent, by simp, result, verified, valid⟩
      split at payload
      · cases payload
        exact ⟨3, by simp, result, verified, valid⟩
      split at payload
      · cases payload
        exact ⟨2, by simp, result, verified, valid⟩
      split at payload
      · obtain ⟨_, -, payload⟩ := bind_ok_iff.mp payload
        cases payload
      · cases payload
    · rw [if_neg valid] at clean
      cases clean

theorem hexDigest_binding {messages : List Bytes} (free : CollisionFree H messages) {left right : Bytes}
    (leftMem : left ∈ messages) (rightMem : right ∈ messages)
    (same : hexDigest H left = hexDigest H right) : left = right :=
  free _ leftMem _ rightMem (hex_injective same)

theorem digestIfHeld_binding {messages : List Bytes} (free : CollisionFree H messages) {left right : Json}
    (leftMem : dumps true left ∈ messages) (rightMem : dumps true right ∈ messages)
    (same : digestIfHeld H left = digestIfHeld H right) : SameOrEmpty left right := by
  unfold digestIfHeld at same
  split at same
  · split at same
    · rw [Json.str.injEq] at same
      exact .inl (dumps_injective (hexDigest_binding free leftMem rightMem same))
    · cases same
  · next leftEmpty =>
    split at same
    · cases same
    · next rightEmpty => exact .inr ⟨by simpa using leftEmpty, by simpa using rightEmpty⟩

theorem signatureDocument_format {left right : Dict} {fmt : Int}
    (known : fmt ∈ ([2, 3, signatureFormatCurrent] : List Int))
    (same : signatureDocument H left fmt = signatureDocument H right signatureFormatCurrent) :
    fmt = signatureFormatCurrent := by
  have artifacts := congrArg (List.lookup "artifact_digests_digest") same
  simp only [List.mem_cons, List.not_mem_nil, or_false] at known
  rcases known with rfl | rfl | rfl
  · simp [signatureDocument, signatureFormatCurrent, List.lookup_cons] at artifacts
  · simp [signatureDocument, signatureFormatCurrent, List.lookup_cons] at artifacts
  · rfl

theorem signatureDocument_fields {left right : Dict}
    (same : signatureDocument H left signatureFormatCurrent = signatureDocument H right signatureFormatCurrent) :
    left.get "merkle_root" = right.get "merkle_root" ∧
      left.getD "merkle_epoch" (.int 0) = right.getD "merkle_epoch" (.int 0) ∧
      left.get "merkle_size" = right.get "merkle_size" ∧
      left.get "pre_merkle_checkpoint" = right.get "pre_merkle_checkpoint" ∧
      digestIfHeld H (left.get "claim_hashes") = digestIfHeld H (right.get "claim_hashes") ∧
      left.get "audit_report_sha256" = right.get "audit_report_sha256" ∧
      digestIfHeld H (left.get "artifact_digests") = digestIfHeld H (right.get "artifact_digests") := by
  have field (key : String) := congrArg (List.lookup key) same
  have root := field "merkle_root"
  have epoch := field "merkle_epoch"
  have size := field "merkle_size"
  have checkpoint := field "pre_merkle_checkpoint"
  have claims := field "claim_hashes_digest"
  have report := field "audit_report_sha256"
  have artifacts := field "artifact_digests_digest"
  simp [signatureDocument, signatureFormatCurrent, List.lookup_cons] at root epoch size checkpoint claims report artifacts
  exact ⟨root, epoch, size, checkpoint, claims, report, artifacts⟩

theorem signedPayloads_mem {layers : List Layer} {payload : Bytes} (signed : payload ∈ signedPayloads H layers) :
    ∃ layer ∈ layers, ∃ stamped dropped, stampMerkleMetadata H layer = .ok (stamped, dropped) ∧
      payload = merkleSignaturePayload H stamped.metadata signatureFormatCurrent ∧
      stamped ∈ stampedLayers H layers := by
  obtain ⟨layer, member, found⟩ := List.mem_filterMap.mp signed
  split at found
  · next stamped dropped accepted =>
    cases found
    refine ⟨layer, member, stamped, dropped, accepted, rfl, ?_⟩
    exact List.mem_filterMap.mpr ⟨layer, member, by simp [accepted]⟩
  · cases found

theorem checkpoint_binding {messages : List Bytes} (free : CollisionFree H messages) {left right : List Dict}
    (leftMem : dumps true (.arr (left.map .obj)) ∈ messages) (rightMem : dumps true (.arr (right.map .obj)) ∈ messages)
    (same : computePreEpochCheckpoint H left = computePreEpochCheckpoint H right) : left = right := by
  have dumped := hexDigest_binding free leftMem rightMem same
  exact List.map_injective_iff.mpr (fun _ _ => Json.obj.inj) (Json.arr.inj (dumps_injective dumped))

theorem scrubbed_binding {left right : List Dict}
    (entries : left.map canonicalEventBytes = right.map canonicalEventBytes) :
    left.map scrubbed = right.map scrubbed := by
  have encoding : Function.Injective fun event : Dict => dumps false (.obj event) :=
    fun _ _ equal => Json.obj.inj (dumps_injective equal)
  apply List.map_injective_iff.mpr encoding
  rw [List.map_map, List.map_map]
  exact entries

/-- Two logs under one root have the same length and hold the same events, each up to its own Merkle keys, or
    two of the byte strings hashed on the way collide and are found. -/
theorem computeMerkleRoot_binding (H : HashFunction) (left right : List Dict) (root : String) (m n : Nat)
    (leftRoot : computeMerkleRoot H left leafFormatCurrent = .ok (root, m))
    (rightRoot : computeMerkleRoot H right leafFormatCurrent = .ok (root, n)) :
    (left.length = right.length ∧ List.Forall₂ (fun a b => scrubbed a = scrubbed b) left right) ∨
      ∃ pair, findCollision H ([] :: (rootMessages H (left.map canonicalEventBytes) ++
        rootMessages H (right.map canonicalEventBytes))) = some pair ∧ IsCollision H pair := by
  rw [computeMerkleRoot_current, Except.ok.injEq, Prod.mk.injEq] at leftRoot rightRoot
  have roots : computeRoot H (left.map canonicalEventBytes) = computeRoot H (right.map canonicalEventBytes) :=
    hex_injective (leftRoot.1.trans rightRoot.1.symm)
  apply holds_or_findCollision
  intro free
  have leftSub : rootMessages H (left.map canonicalEventBytes) ⊆
      [] :: (rootMessages H (left.map canonicalEventBytes) ++ rootMessages H (right.map canonicalEventBytes)) :=
    fun message used => List.mem_cons_of_mem _ (List.mem_append_left _ used)
  have rightSub : rootMessages H (right.map canonicalEventBytes) ⊆
      [] :: (rootMessages H (left.map canonicalEventBytes) ++ rootMessages H (right.map canonicalEventBytes)) :=
    fun message used => List.mem_cons_of_mem _ (List.mem_append_right _ used)
  have entries := computeRoot_injective free List.mem_cons_self leftSub rightSub roots
  have pairwise : List.Forall₂ (fun a b => scrubbed a = scrubbed b) left right := by
    have events : List.Forall₂ (· = ·) (left.map scrubbed) (right.map scrubbed) := by
      rw [List.forall₂_eq_eq_eq]
      exact scrubbed_binding entries
    rwa [List.forall₂_map_left_iff, List.forall₂_map_right_iff] at events
  exact ⟨pairwise.length_eq, pairwise⟩

theorem computeMerkleRoot_binding_restamped :
    (∃ root, computeMerkleRoot sha256 [[("event_id", .str "e1"), ("merkle_index", .int 0)]] leafFormatCurrent =
        .ok (root, 1) ∧
      computeMerkleRoot sha256 [[("event_id", .str "e1")]] leafFormatCurrent = .ok (root, 1)) ∧
    ((1 = 1 ∧ List.Forall₂ (fun a b => scrubbed a = scrubbed b)
        [[("event_id", .str "e1"), ("merkle_index", .int 0)]] [[("event_id", .str "e1")]]) ∨
      ∃ pair, findCollision sha256 ([] ::
        (rootMessages sha256 [canonicalEventBytes [("event_id", .str "e1"), ("merkle_index", .int 0)]] ++
          rootMessages sha256 [canonicalEventBytes [("event_id", .str "e1")]])) = some pair ∧
        IsCollision sha256 pair) := by
  have first := computeMerkleRoot_current (H := sha256) [[("event_id", .str "e1"), ("merkle_index", .int 0)]]
  have second : computeMerkleRoot sha256 [[("event_id", .str "e1")]] leafFormatCurrent =
      computeMerkleRoot sha256 [[("event_id", .str "e1"), ("merkle_index", .int 0)]] leafFormatCurrent := rfl
  exact ⟨⟨_, first, second.trans first⟩,
    computeMerkleRoot_binding sha256 _ _ _ _ _ first (second.trans first)⟩

theorem sameSigned_of_payload {messages : List Bytes} (free : CollisionFree H messages)
    {layer source stamped : Layer} {dropped : Bool} {fmt : Int}
    (known : fmt ∈ ([2, 3, signatureFormatCurrent] : List Int))
    (accepted : stampMerkleMetadata H source = .ok (stamped, dropped))
    (verified : verifyMerkleIntegrity H layer = .ok [])
    (layerSub : signingMessages H layer fmt ⊆ messages)
    (stampedSub : signingMessages H stamped signatureFormatCurrent ⊆ messages)
    (same : merkleSignaturePayload H layer.metadata fmt =
      merkleSignaturePayload H stamped.metadata signatureFormatCurrent) :
    SameSigned layer source := by
  have documents := free _ (layerSub (by simp [signingMessages])) _ (stampedSub (by simp [signingMessages])) same
  have document := Json.obj.inj (dumps_injective documents)
  have format := signatureDocument_format known document
  subst format
  obtain ⟨root, epoch, size, checkpoint, claims, report, artifacts⟩ := signatureDocument_fields document
  obtain ⟨-, -, declaredRoot, declaredSize, declaredCheckpoint, -⟩ := verifyMerkleIntegrity_clean verified
  have sameEpoch : rawEpoch layer = rawEpoch source := epoch.trans (rawEpoch_stamped accepted)
  have epochs := epochOf_congr sameEpoch
  have lengths : (postEpoch layer).length = (postEpoch source).length := by
    rw [size, size_stamped accepted] at declaredSize
    rcases declaredSize with absent | equal
    · cases absent
    · exact (Int.ofNat_inj.mp (pyEq_int.mp equal)).symm
  have roots : computeRoot H ((postEpoch layer).map canonicalEventBytes) =
      computeRoot H ((postEpoch source).map canonicalEventBytes) := by
    rw [declaredRoot, root_stamped accepted, Json.str.injEq] at root
    exact hex_injective root
  have entries := computeRoot_binding free (by simpa using lengths)
    (fun m member => layerSub (by simp [signingMessages, member]))
    (fun m member => stampedSub (by simp [signingMessages, postEpoch_stamped accepted, member])) roots
  refine ⟨sameEpoch, ?_, scrubbed_binding entries, ?_, ?_, ?_⟩
  · rcases Nat.eq_zero_or_pos (epochOf layer) with zero | positive
    · rw [preEpoch, preEpoch, ← epochs, zero, List.take_zero, List.take_zero]
    · rw [declaredCheckpoint positive, checkpoint_stamped accepted (epochs ▸ positive), Json.str.injEq] at checkpoint
      exact checkpoint_binding free (layerSub (by simp [signingMessages]))
        (stampedSub (by simp [signingMessages, preEpoch_stamped accepted])) checkpoint
  · rw [← get_stamped_of_ne accepted (show "claim_hashes" ∉ stampKeys by decide)]
    exact digestIfHeld_binding free (layerSub (by simp [signingMessages]))
      (stampedSub (by simp [signingMessages])) claims
  · rw [report, get_stamped_of_ne accepted (by decide)]
  · rw [← get_stamped_of_ne accepted (show "artifact_digests" ∉ stampKeys by decide)]
    exact digestIfHeld_binding free (layerSub (by simp [signingMessages]))
      (stampedSub (by simp [signingMessages])) artifacts

/-- A layer that carries a signature and verifies cleanly holds what one of the signed layers held, or
    two of the byte strings hashed on the way collide and are found. -/
theorem signature_binding (H : HashFunction) (layers : List Layer) (layer : Layer) (signers : Signers)
    (signingRequired : Bool) (pubkeyPath : String) (backend : SigningBackend)
    (unforgeable : ∀ payload signature result, backend.verify payload signature pubkeyPath = .ok result →
      result.valid = true → payload ∈ signedPayloads H layers)
    (carried : (layer.metadata.get "merkle_root_signature").truthy = true)
    (integrity : verifyMerkleIntegrity H layer = .ok [])
    (signature : verifyMerkleSignature H signers signingRequired layer (some pubkeyPath) (some backend) = .ok []) :
    (∃ source ∈ layers, SameSigned layer source) ∨
      ∃ pair, findCollision H (bindingMessages H layers layer) = some pair ∧ IsCollision H pair := by
  obtain ⟨fmt, known, result, verified, valid⟩ := verifyMerkleSignature_clean carried signature
  obtain ⟨source, member, stamped, dropped, accepted, same, stampedMem⟩ :=
    signedPayloads_mem (unforgeable _ _ _ verified valid)
  apply holds_or_findCollision
  intro free
  refine ⟨source, member, sameSigned_of_payload free known accepted integrity ?_ ?_ same⟩
  · intro message used
    exact List.mem_append_left _ (List.mem_flatMap.mpr ⟨fmt, known, used⟩)
  · intro message used
    exact List.mem_append_right _ (List.mem_flatMap.mpr ⟨stamped, stampedMem, used⟩)

def unsealedLayer : Layer :=
  ⟨Dict.ofList [("claim_hashes", .obj [("F-1", .str "a1")])],
    [Dict.ofList [("event_id", .str "e1"), ("finding_ref", .str "F-1"), ("rationale", .str "seen by hand")]], []⟩

def sealingBackend : SigningBackend where
  methodName := "keypair"
  available := true
  sign := fun _ _ => .ok ⟨"sealed", true, none⟩
  verify := fun payload signature _ =>
    .ok ⟨decide (payload ∈ signedPayloads sha256 [unsealedLayer] ∧ signature = .str "sealed"), none⟩

def sealingSigners : Signers := ⟨sealingBackend, fun _ => sealingBackend⟩

def sealedLayer : Layer :=
  match stampMerkleMetadata sha256 unsealedLayer with
  | .ok (stamped, _) => (signIfConfigured sha256 sealingSigners ⟨"keypair", some "ledger.key", none⟩ stamped).1
  | .error _ => unsealedLayer

theorem signature_binding_sealed :
    (sealedLayer.metadata.get "merkle_root_signature").truthy = true ∧
      ((∃ source ∈ [unsealedLayer], SameSigned sealedLayer source) ∨
        ∃ pair, findCollision sha256 (bindingMessages sha256 [unsealedLayer] sealedLayer) = some pair ∧
          IsCollision sha256 pair) := by
  have carried : (sealedLayer.metadata.get "merkle_root_signature").truthy = true := by decide +kernel
  refine ⟨carried, signature_binding sha256 [unsealedLayer] sealedLayer sealingSigners false "ledger.pub"
    sealingBackend ?_ carried (by decide +kernel) (by decide +kernel)⟩
  intro payload signature result verified valid
  cases verified
  exact (of_decide_eq_true valid).1

end LedgerProof
