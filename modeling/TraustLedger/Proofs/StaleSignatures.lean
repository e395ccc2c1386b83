import TraustLedger.Proofs.SignedLayers

namespace LedgerProof

open Hashing Python Runs Logs Sha256 LedgerModel

variable {env : Env} {H : HashFunction} {made : String → Bytes → Prop}

theorem SameOrEmpty.trans {a b c : Json} (first : SameOrEmpty a b) (second : SameOrEmpty b c) : SameOrEmpty a c := by
  rcases first with rfl | ⟨emptyA, emptyB⟩
  · exact second
  · rcases second with rfl | ⟨-, emptyC⟩
    · exact Or.inr ⟨emptyA, emptyB⟩
    · exact Or.inr ⟨emptyA, emptyC⟩

theorem SameSigned.refl (layer : Layer) : SameSigned layer layer :=
  ⟨rfl, rfl, rfl, Or.inl rfl, rfl, Or.inl rfl⟩

theorem SameSigned.trans {a b c : Layer} (first : SameSigned a b) (second : SameSigned b c) : SameSigned a c :=
  ⟨first.epoch.trans second.epoch, first.preEpoch.trans second.preEpoch, first.postEpoch.trans second.postEpoch,
    first.claimHashes.trans second.claimHashes, first.auditReport.trans second.auditReport,
    first.artifactDigests.trans second.artifactDigests⟩

theorem SameSigned.of_metadata {left right : Layer} (events : left.events = right.events)
    (epoch : left.metadata.lookup "merkle_epoch" = right.metadata.lookup "merkle_epoch")
    (fields : ∀ field ∈ signedMetadataFields, left.metadata.get field = right.metadata.get field) :
    SameSigned left right := by
  have raw := rawEpoch_congr epoch
  constructor
  · exact raw
  · exact preEpoch_congr raw events
  · rw [postEpoch_congr raw events]
  · exact Or.inl (fields _ (by decide))
  · exact fields _ (by decide)
  · exact Or.inl (fields _ (by decide))

def RootMoves (H : HashFunction) (draft : Layer) : Prop :=
  draft.metadata.get "merkle_root" ≠ .null ∧ draft.metadata.get "merkle_root" ≠
    .str (hex (computeRoot H ((postEpoch draft).map canonicalEventBytes)))

/-- A signature the signer made was made over what is stored now, and what is stored now is stamped. -/
def Fresh (H : HashFunction) (made : String → Bytes → Prop) (layer : Layer) : Prop :=
  ∀ signature payload, layer.metadata.get "merkle_root_signature" = .str signature → made signature payload →
    Stamped H layer ∧ payload = payloadOf H layer

theorem SignedOver.fresh {layer : Layer} (ideal : ∀ signature p q, made signature p → made signature q → p = q)
    (stamped : Stamped H layer) (signed : SignedOver H made layer) : Fresh H made layer := by
  obtain ⟨own, carried, produced⟩ := signed
  intro signature payload held madeOver
  rw [carried] at held
  cases held
  exact ⟨stamped, ideal _ _ _ madeOver produced⟩

def Kept (H : HashFunction) (made : String → Bytes → Prop) (layer draft : Layer) : Prop :=
  ∀ signature payload, draft.metadata.get "merkle_root_signature" = .str signature → made signature payload →
    RootMoves H draft ∨ (draft.metadata.get "merkle_root_signature" = layer.metadata.get "merkle_root_signature" ∧
      SameSigned draft layer)

theorem Fresh.stamp {layer draft next : Layer} {dropped : Bool} (fresh : Fresh H made layer)
    (kept : Kept H made layer draft) (stamp : stampMerkleMetadata H draft = .ok (next, dropped)) :
    Fresh H made next := by
  obtain ⟨-, -, -, -, moved⟩ := stampMerkleMetadata_ok stamp
  intro signature payload held madeOver
  rw [signature_stamped stamp] at held
  cases dropped with
  | true => cases held
  | false =>
    simp only [Bool.false_eq_true, if_false] at held
    rcases kept signature payload held madeOver with ⟨present, other⟩ | ⟨same, signedPart⟩
    · have droppedAfterAll := moved.mpr ⟨present, by simpa using other⟩
      cases droppedAfterAll
    · rw [same] at held
      obtain ⟨stamped, made⟩ := fresh signature payload held madeOver
      have signed := (sameSigned_stamped stamp).trans signedPart
      have covered := payloadOf_congr (stamped_of_stamp stamp).fields stamped.fields signed
      exact ⟨stamped_of_stamp stamp, made.trans covered.symm⟩

def logMessages (H : HashFunction) (layer : Layer) : List Bytes :=
  rootMessages H ((postEpoch layer).map canonicalEventBytes)

theorem rootMoves_of_ne {messages : List Bytes} (free : CollisionFree H messages) (emptyMem : [] ∈ messages)
    {layer draft : Layer} (stamped : Stamped H layer)
    (root : draft.metadata.get "merkle_root" = layer.metadata.get "merkle_root")
    (layerSub : logMessages H layer ⊆ messages) (draftSub : logMessages H draft ⊆ messages)
    (differs : (postEpoch draft).map scrubbed ≠ (postEpoch layer).map scrubbed) : RootMoves H draft := by
  refine ⟨by simp [root, stamped.root], fun same => differs ?_⟩
  rw [root, stamped.root, Json.str.injEq] at same
  exact (scrubbed_binding (computeRoot_injective free emptyMem layerSub draftSub (hex_injective same))).symm

def patchedLayer (layer : Layer) (updates : Dict) : Layer :=
  { layer with metadata := applyUpdates layer.metadata updates }

def restatedLayer (layer : Layer) (target : String) (after : Json) : Layer :=
  { layer with metadata := assign layer.metadata target (mergeDelta (layer.metadata.get target) after) }

def Signatureless (layer : Layer) : Prop :=
  ∀ signature, layer.metadata.get "merkle_root_signature" ≠ .str signature

/-- A call without a signer may change what a signature covers only where it also moves the root under it:
    a restatement has an id of its own, a patch leaves the signed values, the epoch and the signature alone or
    leaves a root the log does not have, and fingerprints are not given to events before the epoch alone. A layer
    without a signature has none to spare. -/
def SparesSignature (H : HashFunction) (layer : Layer) : Call → Prop
  | .restate _ _ block _ actor recordedAt =>
    Signatureless layer ∨ holdsId layer.events (restatementId H block actor recordedAt) = false ∨
      ∀ target, block.get "target" = .str target → SameSigned (restatedLayer layer target (block.get "after")) layer
  | .patch _ _ updates =>
    ((patchedLayer layer updates).metadata.get "merkle_root_signature" =
        layer.metadata.get "merkle_root_signature" ∧
      (Signatureless layer ∨ SameSigned (patchedLayer layer updates) layer)) ∨
      RootMoves H (patchedLayer layer updates)
  | .stampIdentities _ _ fingerprints => Signatureless layer ∨
    (∀ event ∈ preEpoch layer, (attachIdentity (fingerprintIndex fingerprints) event).2 = false) ∨
      ∃ event ∈ postEpoch layer, (attachIdentity (fingerprintIndex fingerprints) event).2 = true
  | _ => True

theorem postEpoch_append {layer draft : Layer} {added : List Dict} (stamped : Stamped H layer)
    (epoch : rawEpoch draft = rawEpoch layer) (events : draft.events = layer.events ++ added) :
    postEpoch draft = postEpoch layer ++ added := by
  have epochs := epochOf_congr epoch
  have inside : epochOf layer ≤ layer.events.length := by
    by_cases zero : layer.events.length = 0
    · rw [stamped.empty zero]
      exact Nat.zero_le _
    · exact (stamped.inside zero).le
  rw [postEpoch, postEpoch, epochs, events, List.drop_append_of_le_length inside]

theorem lookup_scrubbed {event : Dict} {key : String} (plain : isMerkleKey key = false) :
    (scrubbed event).lookup key = event.lookup key := by
  induction event with
  | nil => rfl
  | cons entry rest ih =>
    unfold scrubbed at ih ⊢
    by_cases same : key = entry.1
    · rw [List.filter_cons_of_pos (by simp [← same, plain]), Dict.lookup_cons_ite, Dict.lookup_cons_ite, if_pos same,
        if_pos same]
    · rw [Dict.lookup_cons_ite, if_neg same, ← ih, List.filter_cons]
      split
      · rw [Dict.lookup_cons_ite, if_neg same]
      · rfl

theorem scrubbed_marked {index : List (Json × Json)} {event : Dict} (marked : (attachIdentity index event).2 = true) :
    scrubbed (attachIdentity index event).1 ≠ scrubbed event := by
  intro same
  have read := congrArg (fun scrub => Dict.get scrub "fingerprint") same
  simp only [Dict.get, lookup_scrubbed (show isMerkleKey "fingerprint" = false by decide)] at read
  unfold attachIdentity at marked read
  split at marked
  · cases marked
  · next none =>
    simp only at marked
    split at marked
    · next found =>
      simp only [none, found, if_true, if_false, Bool.false_eq_true] at read
      rw [Dict.lookup_set, if_neg (by decide), Dict.lookup_set, if_pos rfl, ← Dict.get] at read
      exact none (read ▸ found)
    · cases marked

section Drafts

variable {messages : List Bytes} (free : CollisionFree H messages) (emptyMem : [] ∈ messages) {layer draft : Layer}
  (layerSub : logMessages H layer ⊆ messages) (draftSub : logMessages H draft ⊆ messages)

include free emptyMem layerSub draftSub

theorem rootMoves_of_append {added : List Dict} (stamped : Stamped H layer) (epoch : rawEpoch draft = rawEpoch layer)
    (root : draft.metadata.get "merkle_root" = layer.metadata.get "merkle_root")
    (events : draft.events = layer.events ++ added) (grown : added ≠ []) : RootMoves H draft := by
  apply rootMoves_of_ne free emptyMem stamped root layerSub draftSub
  rw [postEpoch_append stamped epoch events]
  intro same
  have lengths := congrArg List.length same
  simp only [List.map_append, List.length_append, List.length_map, Nat.add_eq_left] at lengths
  exact grown (List.length_eq_zero_iff.mp lengths)

theorem kept_of_append (added : List Dict) (fresh : Fresh H made layer) (metadata : draft.metadata = layer.metadata)
    (events : draft.events = layer.events ++ added) : Kept H made layer draft := by
  intro signature payload held madeOver
  have epoch : rawEpoch draft = rawEpoch layer := by
    rw [rawEpoch, rawEpoch, metadata]
  by_cases grown : added = []
  · subst grown
    rw [List.append_nil] at events
    exact Or.inr ⟨by rw [metadata], .of_metadata events (by rw [metadata]) fun field _ => by rw [metadata]⟩
  · rw [metadata] at held
    obtain ⟨stamped, -⟩ := fresh signature payload held madeOver
    exact Or.inl (rootMoves_of_append free emptyMem layerSub draftSub stamped epoch (by rw [metadata]) events grown)

theorem kept_of_restated {target : String} {after : Json} (added : List Dict) (fresh : Fresh H made layer)
    (signed : target ∈ signedMetadataFields)
    (restated : draft = { restatedLayer layer target after with events := layer.events ++ added })
    (spared : added = [] → Signatureless layer ∨ SameSigned (restatedLayer layer target after) layer) :
    Kept H made layer draft := by
  have elsewhere : ∀ key, key ∉ signedMetadataFields → draft.metadata.lookup key = layer.metadata.lookup key := by
    intro key outside
    have other : key ≠ target := fun same => outside (same ▸ signed)
    rw [restated]
    simp only [restatedLayer, assign]
    split <;> simp [other]
  have carried : draft.metadata.get "merkle_root_signature" = layer.metadata.get "merkle_root_signature" := by
    rw [Dict.get, Dict.get, elsewhere _ (by decide)]
  intro signature payload held madeOver
  by_cases grown : added = []
  · subst grown
    rcases spared rfl with unsigned | same
    · rw [carried] at held
      exact absurd held (unsigned signature)
    · refine Or.inr ⟨carried, ?_⟩
      rw [restated, List.append_nil]
      exact same
  · rw [carried] at held
    obtain ⟨stamped, -⟩ := fresh signature payload held madeOver
    refine Or.inl (rootMoves_of_append free emptyMem layerSub draftSub stamped ?_ ?_ (by rw [restated]) grown)
    · exact rawEpoch_congr (elsewhere _ (by decide))
    · rw [Dict.get, Dict.get, elsewhere _ (by decide)]

theorem kept_of_identities {index : List (Json × Json)} (fresh : Fresh H made layer)
    (identified : draft = { layer with events := layer.events.map fun event => (attachIdentity index event).1 })
    (spared : Signatureless layer ∨ (∀ event ∈ preEpoch layer, (attachIdentity index event).2 = false) ∨
      ∃ event ∈ postEpoch layer, (attachIdentity index event).2 = true) : Kept H made layer draft := by
  have metadata : draft.metadata = layer.metadata := by rw [identified]
  have epoch : rawEpoch draft = rawEpoch layer := by
    rw [rawEpoch, rawEpoch, metadata]
  have epochs := epochOf_congr epoch
  have before : preEpoch draft = (preEpoch layer).map fun event => (attachIdentity index event).1 := by
    rw [preEpoch, preEpoch, epochs, identified, List.map_take]
  have after : postEpoch draft = (postEpoch layer).map fun event => (attachIdentity index event).1 := by
    rw [postEpoch, postEpoch, epochs, identified, List.map_drop]
  intro signature payload held madeOver
  rw [metadata] at held
  obtain ⟨stamped, -⟩ := fresh signature payload held madeOver
  by_cases same : (postEpoch draft).map scrubbed = (postEpoch layer).map scrubbed
  · refine Or.inr ⟨by rw [metadata], ⟨epoch, ?_, same, ?_, ?_, ?_⟩⟩
    · rcases spared with unsigned | untouched | ⟨event, member, marked⟩
      · exact absurd held (unsigned signature)
      · have unchanged : ∀ event ∈ preEpoch layer, (attachIdentity index event).1 = event :=
          fun event member => attachIdentity_unstamped (untouched event member)
        rw [before, List.map_congr_left unchanged, List.map_id']
      · rw [after, List.map_map] at same
        exact absurd (List.map_inj_left.mp same event member) (scrubbed_marked marked)
    · exact Or.inl (by rw [metadata])
    · rw [metadata]
    · exact Or.inl (by rw [metadata])
  · exact Or.inl (rootMoves_of_ne free emptyMem stamped (by rw [metadata]) layerSub draftSub same)

end Drafts

theorem appendOne_added {layer appended : Layer} {event : Dict} {id : String}
    (accepted : appendOne H layer event = .ok (appended, id)) :
    ∃ added, appended = { layer with events := layer.events ++ added } := by
  obtain ⟨prepared, -, rfl⟩ := appendOne_ok accepted
  by_cases known : holdsId layer.events id = true
  · exact ⟨[], by rw [if_pos known, List.append_nil]⟩
  · exact ⟨[prepared], by rw [if_neg known]⟩

theorem kept_of_patch {layer : Layer} {updates : Dict} {moment : Moment}
    (spared : ((patchedLayer layer updates).metadata.get "merkle_root_signature" =
        layer.metadata.get "merkle_root_signature" ∧
        (Signatureless layer ∨ SameSigned (patchedLayer layer updates) layer)) ∨
      RootMoves H (patchedLayer layer updates)) :
    Kept H made layer { layer with
      metadata := (applyUpdates layer.metadata updates).set "updated" (.str moment.nowText) } := by
  have elsewhere : ∀ key, key ≠ "updated" →
      ((applyUpdates layer.metadata updates).set "updated" (.str moment.nowText)).lookup key =
        (patchedLayer layer updates).metadata.lookup key := by
    intro key other
    rw [Dict.lookup_set, if_neg other, patchedLayer]
  have read : ∀ key, key ≠ "updated" →
      ((applyUpdates layer.metadata updates).set "updated" (.str moment.nowText)).get key =
        (patchedLayer layer updates).metadata.get key := by
    intro key other
    rw [Dict.get, Dict.get, elsewhere key other]
  have sameDraft : SameSigned { layer with
      metadata := (applyUpdates layer.metadata updates).set "updated" (.str moment.nowText) }
      (patchedLayer layer updates) := by
    refine .of_metadata rfl (elsewhere _ (by decide)) fun field member => read field ?_
    rintro rfl
    revert member
    decide
  intro signature payload held madeOver
  rcases spared with ⟨carried, unsigned | same⟩ | ⟨present, moved⟩
  · rw [read _ (by decide), carried] at held
    exact absurd held (unsigned signature)
  · refine Or.inr ⟨?_, sameDraft.trans same⟩
    rw [read _ (by decide), carried]
  · refine Or.inl ⟨by rwa [read _ (by decide)], ?_⟩
    rw [read _ (by decide)]
    rwa [postEpoch_congr sameDraft.epoch rfl]

theorem Draft.kept {messages : List Bytes} (free : CollisionFree env.hash messages) (emptyMem : [] ∈ messages)
    {layer draft : Layer} {call : Call} {moment : Moment} (layerSub : logMessages env.hash layer ⊆ messages)
    (draftSub : logMessages env.hash draft ⊆ messages) (fresh : Fresh env.hash made layer)
    (spared : SparesSignature env.hash layer call) (drafted : Draft env layer call moment draft) :
    Kept env.hash made layer draft := by
  cases drafted with
  | @restate _ layerId rationale recordedAt target id block event actor _ gated appending =>
    obtain ⟨held, signed, -, -, -, canonical⟩ := restatementEvent_ok gated
    obtain ⟨prepared, preparation, restated⟩ := appendRestatement_layer appending
    obtain ⟨-, computed, -⟩ := prepareEvent_ok preparation
    rw [canonical] at computed
    cases computed
    by_cases known : holdsId layer.events (restatementId env.hash block actor recordedAt) = true
    · rw [if_pos known] at restated
      apply kept_of_restated free emptyMem layerSub draftSub [] fresh signed
      · rw [restated, List.append_nil]
        rfl
      · intro _
        rcases spared with unsigned | unknown | same
        · exact Or.inl unsigned
        · rw [known] at unknown
          cases unknown
        · exact Or.inr (same target held)
    · rw [if_neg known] at restated
      apply kept_of_restated free emptyMem layerSub draftSub [prepared] fresh signed restated
      intro absurdity
      cases absurdity
  | patch => exact kept_of_patch spared
  | submitEvent submitted appending =>
    obtain ⟨added, rfl⟩ := appendOne_added appending
    exact kept_of_append free emptyMem layerSub draftSub added fresh rfl rfl
  | submitBatch appending =>
    obtain ⟨added, rfl, -⟩ := appendMany_ok appending
    exact kept_of_append free emptyMem layerSub draftSub added fresh rfl rfl
  | stampIdentities => exact kept_of_identities free emptyMem layerSub draftSub fresh rfl spared
  | sign => exact fun signature payload held madeOver => Or.inr ⟨rfl, .refl layer⟩

theorem Stamped.root_truthy {layer : Layer} (stamped : Stamped H layer) :
    (layer.metadata.get "merkle_root").truthy = true := by
  rw [stamped.root]
  exact hex_truthy _

def SignerWorks (env : Env) (moment : Moment) : Prop :=
  ∀ layer : Layer, (layer.metadata.get "merkle_root").truthy = true →
    (signIfConfigured env.hash env.signers (signingConfig moment.config moment.harness) layer).2.status = .signed

def SigningDoor : Call → Prop
  | .submitEvent .. | .submitBatch .. | .restate .. | .patch .. | .stampIdentities .. | .sign .. => True
  | _ => False

theorem Fresh.step {messages : List Bytes} (free : CollisionFree env.hash messages) (emptyMem : [] ∈ messages)
    (ideal : ∀ signature p q, made signature p → made signature q → p = q) (honest : Honest made env)
    {layer next : Layer} {call : Call} (layerSub : logMessages env.hash layer ⊆ messages)
    (nextSub : logMessages env.hash next ⊆ messages) (fresh : Fresh env.hash made layer) (door : SigningDoor call)
    (spared : (∃ moment ∈ momentOf call, SignerWorks env moment) ∨ SparesSignature env.hash layer call)
    (accepted : step env layer call = .ok next) : Fresh env.hash made next := by
  cases step_written accepted with
  | @finalized _ moment draft _ layerId root drafted finalizing =>
    rcases finalizeLayer_cases honest.signers finalizing with signed | ⟨dropped, stamp, -, failed⟩
    · exact signed.fresh ideal (stamped_of_finalize finalizing)
    · rcases spared with ⟨moment, found, works⟩ | spared
      · rw [drafted.moment] at found
        cases found
        exact absurd (works next (stamped_of_stamp stamp).root_truthy) failed
      · have sameLog : logMessages env.hash next = logMessages env.hash draft := by
          rw [logMessages, logMessages, postEpoch_stamped stamp]
        exact fresh.stamp (drafted.kept free emptyMem layerSub (sameLog ▸ nextSub) fresh spared) stamp
  | appended appending => cases door
  | endpoint signing => cases door
  | queued metadata events =>
    intro signature payload held madeOver
    rw [metadata] at held
    obtain ⟨stamped, matched⟩ := fresh signature payload held madeOver
    refine ⟨stamped.congr events fun key _ => by rw [metadata], ?_⟩
    rw [matched, payloadOf, payloadOf, metadata]

def runMessages (env : Env) (start : Layer) (calls : List (Tools × Call)) : List Bytes :=
  [] :: (visited (stepWith env) start calls).flatMap (logMessages env.hash)

/-- A signature of an ideal signer stands only over what is stored, or two of the byte strings hashed into the
    roots of the run collide and are found. -/
theorem no_stale_signature (env : Env) (made : String → Bytes → Prop) (start : Layer) (calls : List (Tools × Call))
    (ideal : ∀ signature p q, made signature p → made signature q → p = q)
    (honest : ∀ call ∈ calls, Honest made (env.withTools call.1)) (doors : ∀ call ∈ calls, SigningDoor call.2)
    (fresh : Fresh env.hash made start)
    (spared : Along (stepWith env) (fun layer call =>
      (∃ moment ∈ momentOf call.2, SignerWorks (env.withTools call.1) moment) ∨
        SparesSignature env.hash layer call.2) start calls) :
    (∀ signature payload,
      (run (stepWith env) start calls).metadata.get "merkle_root_signature" = .str signature →
      made signature payload → payload = payloadOf env.hash (run (stepWith env) start calls)) ∨
    ∃ pair, findCollision env.hash (runMessages env start calls) = some pair ∧ IsCollision env.hash pair := by
  apply holds_or_findCollision
  intro free
  have final : Fresh env.hash made (run (stepWith env) start calls) := by
    have recorded : ∀ layer ∈ visited (stepWith env) start calls,
        logMessages env.hash layer ⊆ runMessages env start calls := by
      intro layer member message used
      exact List.mem_cons_of_mem _ (List.mem_flatMap.mpr ⟨layer, member, used⟩)
    refine run_invariant_within (fun layer call next member layerSub nextSub fresh spared accepted => ?_) fresh spared
      recorded
    exact @Fresh.step (env.withTools call.1) made _ free List.mem_cons_self ideal (honest call member) layer next call.2
      layerSub nextSub fresh (doors call member) spared accepted
  exact fun signature payload held madeOver => (final signature payload held madeOver).2

theorem spells_ideal (signature : String) (p q : Bytes) (first : spells signature p) (second : spells signature q) :
    p = q := hex_injective (first.symm.trans second)

theorem oneClaim_fresh : Fresh sha256 spells oneClaim := by
  intro signature payload held
  have absent : oneClaim.metadata.get "merkle_root_signature" = .null := by decide
  rw [absent] at held
  cases held

theorem no_stale_signature_scan :
    (run (stepWith referenceEnv) oneClaim [signedScan, (spellingTools, .sign unsigned "acme")]).metadata.get
        "merkle_root_signature" ≠ .null ∧
    ((∀ signature payload,
      (run (stepWith referenceEnv) oneClaim [signedScan, (spellingTools, .sign unsigned "acme")]).metadata.get
        "merkle_root_signature" = .str signature → spells signature payload → payload =
          payloadOf sha256 (run (stepWith referenceEnv) oneClaim [signedScan, (spellingTools, .sign unsigned "acme")])) ∨
      ∃ pair, findCollision sha256
        (runMessages referenceEnv oneClaim [signedScan, (spellingTools, .sign unsigned "acme")]) = some pair ∧
        IsCollision sha256 pair) := by
  refine ⟨by decide +kernel, no_stale_signature referenceEnv spells oneClaim _ spells_ideal ?_ ?_ oneClaim_fresh ?_⟩
  · intro call member
    simp only [signedScan, List.mem_cons, List.not_mem_nil, or_false] at member
    rcases member with rfl | rfl <;> exact spelling_honest referenceEnv
  · intro call member
    simp only [signedScan, List.mem_cons, List.not_mem_nil, or_false] at member
    rcases member with rfl | rfl <;> trivial
  · exact ⟨fun _ => Or.inr trivial, fun _ => Or.inr trivial, trivial⟩

def unsignedPatch : Tools × Call := (spellingTools, patchClaims [("FIND-2", .str "b")])

/-- The root did not move, so the stamp keeps a signature that no longer covers the claim hashes. -/
theorem unsignedPatch_stale : Fresh sha256 spells oneClaim ∧
    (∀ call ∈ [signedScan, unsignedPatch], Honest spells (referenceEnv.withTools call.1) ∧ SigningDoor call.2) ∧
    (stepWith referenceEnv oneClaim signedScan).isOk = true ∧
    (stepWith referenceEnv (run (stepWith referenceEnv) oneClaim [signedScan]) unsignedPatch).isOk = true ∧
    ∃ signature payload, (run (stepWith referenceEnv) oneClaim [signedScan, unsignedPatch]).metadata.get
        "merkle_root_signature" = .str signature ∧ spells signature payload ∧
      payload ≠ payloadOf sha256 (run (stepWith referenceEnv) oneClaim [signedScan, unsignedPatch]) := by
  have facts : (stepWith referenceEnv oneClaim signedScan).isOk = true ∧
      (stepWith referenceEnv (run (stepWith referenceEnv) oneClaim [signedScan]) unsignedPatch).isOk = true ∧
      (run (stepWith referenceEnv) oneClaim [signedScan, unsignedPatch]).metadata.get "merkle_root_signature" =
        .str (hex (payloadOf sha256 (run (stepWith referenceEnv) oneClaim [signedScan]))) ∧
      payloadOf sha256 (run (stepWith referenceEnv) oneClaim [signedScan]) ≠
        payloadOf sha256 (run (stepWith referenceEnv) oneClaim [signedScan, unsignedPatch]) := by
    decide +kernel
  obtain ⟨signed, patched, carried, moved⟩ := facts
  refine ⟨oneClaim_fresh, ?_, signed, patched, _, _, carried, rfl, moved⟩
  intro call member
  simp only [signedScan, unsignedPatch, List.mem_cons, List.not_mem_nil, or_false] at member
  rcases member with rfl | rfl <;> exact ⟨spelling_honest referenceEnv, trivial⟩

end LedgerProof
