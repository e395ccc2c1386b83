import TraustLedger.Proofs.AppendOnly
import TraustLedger.Proofs.FindingGroups
import TraustLedger.Proofs.SignedLayers

namespace LedgerProof

open Hashing Python Runs Logs LedgerModel Sha256

section Claims

variable {H : HashFunction} {finding other : Dict}

def claimOf (finding : Dict) : Dict := Dict.ofList (claimFields.map fun field => (field, finding.get field))

def claimMessage (finding : Dict) : Bytes := dumps false (.obj (claimOf finding))

/-- The two findings claim the same; whatever else they hold is not compared. -/
def SameClaim (left right : Dict) : Prop := ∀ field ∈ claimFields, left.get field = right.get field

theorem get_claimOf {field : String} (member : field ∈ claimFields) :
    (claimOf finding).get field = finding.get field := by
  simp only [claimFields, List.mem_cons, List.not_mem_nil, or_false] at member
  rcases member with rfl | rfl | rfl | rfl | rfl | rfl | rfl <;>
    simp [claimOf, claimFields, Dict.ofList, Dict.update]

theorem claimOf_eq_iff : claimOf finding = claimOf other ↔ SameClaim finding other := by
  constructor
  · intro same field member
    rw [← get_claimOf member, same, get_claimOf member]
  · intro same
    unfold claimOf
    rw [List.map_congr_left fun field member => by rw [same field member]]

theorem computeClaimHash_eq_iff {messages : List Bytes} (free : CollisionFree H messages)
    (here : claimMessage finding ∈ messages) (there : claimMessage other ∈ messages) :
    computeClaimHash H finding = computeClaimHash H other ↔ SameClaim finding other := by
  rw [← claimOf_eq_iff]
  constructor
  · intro same
    have encoded : claimMessage finding = claimMessage other := hexDigest_binding free here there same
    exact Json.obj.inj (dumps_injective encoded)
  · intro same
    exact congrArg (fun claim => hexDigest H (dumps false (.obj claim))) same

def Pins (H : HashFunction) (layer : Layer) (ref : String) (finding : Dict) : Prop :=
  ∃ hashes, layer.metadata.get "claim_hashes" = .obj hashes ∧
    hashes.lookup ref = some (.str (computeClaimHash H finding))

def claimMessages (recorded : Layer → String → Dict) (layers : List Layer) (ref : String) (finding : Dict) :
    List Bytes :=
  claimMessage finding :: layers.map fun source => claimMessage (recorded source ref)

theorem sameSigned_of_clean {layers : List Layer} {layer : Layer} {signers : Signers} {signingRequired : Bool}
    {pubkeyPath : String} {backend : SigningBackend} {messages : List Bytes}
    (unforgeable : ∀ payload signature result, backend.verify payload signature pubkeyPath = .ok result →
      result.valid = true → payload ∈ signedPayloads H layers)
    (carried : (layer.metadata.get "merkle_root_signature").truthy = true)
    (integrity : verifyMerkleIntegrity H layer = .ok [])
    (signature : verifyMerkleSignature H signers signingRequired layer (some pubkeyPath) (some backend) = .ok [])
    (free : CollisionFree H messages) (looked : bindingMessages H layers layer ⊆ messages) :
    ∃ source ∈ layers, SameSigned layer source := by
  rcases verifyMerkleSignature_clean carried signature with ⟨fmt, known, result, verified, valid⟩
  rcases signedPayloads_mem (unforgeable _ _ _ verified valid) with
    ⟨source, member, stamped, dropped, accepted, same, stampedMem⟩
  refine ⟨source, member, sameSigned_of_payload free known accepted integrity ?_ ?_ same⟩
  · intro message used
    apply looked
    exact List.mem_append_left _ (List.mem_flatMap.mpr ⟨fmt, known, used⟩)
  · intro message used
    apply looked
    exact List.mem_append_right _ (List.mem_flatMap.mpr ⟨stamped, stampedMem, used⟩)

theorem verifyMerkleSignature_passed {signers : Signers} {signingRequired : Bool} {layer : Layer}
    {pubkeyPath : String} {backend : SigningBackend} {payload : Bytes} {result : VerifyResult}
    (carried : (layer.metadata.get "merkle_root_signature").truthy = true)
    (root : (layer.metadata.get "merkle_root").truthy = true) (available : backend.available = true)
    (declared : declaredPayload H layer.metadata = .ok (some (payload, [])))
    (verified : backend.verify payload (layer.metadata.get "merkle_root_signature") pubkeyPath = .ok result)
    (valid : result.valid = true) :
    verifyMerkleSignature H signers signingRequired layer (some pubkeyPath) (some backend) = .ok [] := by
  unfold verifyMerkleSignature checkSignature
  simp only [carried, root, available, declared, verified, valid, bind, Except.bind, Bool.true_eq_false, if_false,
    if_true]
  rfl

end Claims

/-- A finding checked against the claim hashes of a layer that verifies cleanly passes exactly when it claims what was
    claimed under its reference when one of the signed layers recorded it, or a collision is found. -/
theorem signed_claims_bound (H : HashFunction) (layers : List Layer) (layer : Layer) (signers : Signers)
    (signingRequired : Bool) (pubkeyPath : String) (backend : SigningBackend)
    (unforgeable : ∀ payload signature result, backend.verify payload signature pubkeyPath = .ok result →
      result.valid = true → payload ∈ signedPayloads H layers)
    (carried : (layer.metadata.get "merkle_root_signature").truthy = true)
    (integrity : verifyMerkleIntegrity H layer = .ok [])
    (signature : verifyMerkleSignature H signers signingRequired layer (some pubkeyPath) (some backend) = .ok [])
    (recorded : Layer → String → Dict)
    (pinned : ∀ source ∈ layers, ∀ hashes ref hash, source.metadata.get "claim_hashes" = .obj hashes →
      hashes.lookup ref = some hash → hash = .str (computeClaimHash H (recorded source ref)))
    (hashes : Dict) (ref : String) (held : layer.metadata.get "claim_hashes" = .obj hashes)
    (listed : (hashes.lookup ref).isSome = true) (finding : Dict) :
    (∃ source ∈ layers, SameSigned layer source ∧
      (Pins H layer ref finding ↔ SameClaim finding (recorded source ref))) ∨
    ∃ pair, findCollision H (claimMessages recorded layers ref finding ++ bindingMessages H layers layer) = some pair ∧
      IsCollision H pair := by
  apply holds_or_findCollision
  intro free
  rcases sameSigned_of_clean unforgeable carried integrity signature free (List.subset_append_right _ _) with
    ⟨source, member, same⟩
  rcases Option.isSome_iff_exists.mp listed with ⟨hash, found⟩
  have filled : (Json.obj hashes).truthy = true := by
    cases hashes with
    | nil => cases found
    | cons entry entries => rfl
  have sourceHashes : source.metadata.get "claim_hashes" = .obj hashes := by
    rcases same.claimHashes with equal | ⟨empty, -⟩
    · rw [← equal, held]
    · rw [held, filled] at empty
      cases empty
  have hashed := pinned source member hashes ref hash sourceHashes found
  refine ⟨source, member, same, ?_⟩
  have here : claimMessage finding ∈ claimMessages recorded layers ref finding ++ bindingMessages H layers layer :=
    List.mem_cons_self
  have there : claimMessage (recorded source ref) ∈
      claimMessages recorded layers ref finding ++ bindingMessages H layers layer :=
    List.mem_append_left _ (List.mem_cons_of_mem _ (List.mem_map.mpr ⟨source, member, rfl⟩))
  rw [← computeClaimHash_eq_iff free here there]
  constructor
  · rintro ⟨others, heldToo, at_ref⟩
    rw [held] at heldToo
    cases heldToo
    rw [found, hashed] at at_ref
    exact (Json.str.inj (Option.some.inj at_ref)).symm
  · intro equal
    exact ⟨hashes, held, by rw [found, hashed, equal]⟩

def pinnedFinding : Dict := Dict.ofList [("id", .str "F-1"), ("severity", .str "high")]

def pinningLayer : Layer :=
  ⟨Dict.ofList [("claim_hashes", .obj [("F-1", .str (computeClaimHash sha256 pinnedFinding))])],
    [Dict.ofList [("event_id", .str "e1"), ("finding_ref", .str "F-1"), ("rationale", .str "seen by hand")]], []⟩

def pinningBackend : SigningBackend :=
  { sealingBackend with
    verify := fun payload signature _ =>
      .ok ⟨(signedPayloads sha256 [pinningLayer]).contains payload && decide (signature = .str "sealed"), none⟩ }

def pinningSigners : Signers := ⟨pinningBackend, fun _ => pinningBackend⟩

def sealedPins : Layer :=
  match stampMerkleMetadata sha256 pinningLayer with
  | .ok (stamped, _) => (signIfConfigured sha256 pinningSigners ⟨"keypair", some "ledger.key", none⟩ stamped).1
  | .error _ => pinningLayer

theorem sealedPins_eq : ∃ stamped dropped, stampMerkleMetadata sha256 pinningLayer = .ok (stamped, dropped) ∧
    sealedPins = { stamped with metadata := ((stamped.metadata.set "merkle_root_signature" (.str "sealed")).set
      "merkle_signing_method" (.str "keypair")).set "merkle_signature_format" (.int signatureFormatCurrent) } ∧
    (stamped.metadata.get "merkle_root").truthy = true := by
  have stamps : (stampMerkleMetadata sha256 pinningLayer).isOk = true := by decide +kernel
  rcases exists_of_isOk stamps with ⟨⟨stamped, dropped⟩, accepted⟩
  have rooted : (stamped.metadata.get "merkle_root").truthy = true := by
    rw [root_stamped accepted]
    exact hex_truthy _
  refine ⟨stamped, dropped, accepted, ?_, rooted⟩
  unfold sealedPins
  rw [accepted]
  simp [signIfConfigured, rooted, getBackendFromConfig, pinningSigners, pinningBackend, sealingBackend]

theorem sealedPins_intact : verifyMerkleIntegrity sha256 sealedPins = .ok [] := by
  rcases sealedPins_eq with ⟨stamped, dropped, accepted, sealing, -⟩
  have fields : Stamped sha256 sealedPins := by
    apply (stamped_of_stamp accepted).congr
    · rw [sealing]
    · intro key other
      simp only [signatureKeys, List.mem_cons, List.not_mem_nil, or_false, not_or] at other
      rw [sealing]
      simp [other]
  have plain (metadata : Dict) (queue : List Json) :
      verifyRestatedMetadata ⟨metadata, pinningLayer.events, queue⟩ = .ok [] := rfl
  rw [fields.verifies, sealing, events_stamped accepted]
  exact plain _ _

theorem sealedPins_verifies :
    verifyMerkleSignature sha256 pinningSigners false sealedPins (some "ledger.pub") (some pinningBackend) =
      .ok [] := by
  rcases sealedPins_eq with ⟨stamped, dropped, accepted, sealing, rooted⟩
  have payload := @payloadOf_signed sha256 stamped (.str "sealed") (.str "keypair") (.int signatureFormatCurrent)
  rw [← sealing] at payload
  have signed : merkleSignaturePayload sha256 sealedPins.metadata signatureFormatCurrent ∈
      signedPayloads sha256 [pinningLayer] := by
    rw [signedPayloads, List.mem_filterMap]
    refine ⟨pinningLayer, List.mem_singleton_self _, ?_⟩
    rw [accepted]
    exact congrArg some payload.symm
  have declared : declaredPayload sha256 sealedPins.metadata =
      .ok (some (merkleSignaturePayload sha256 sealedPins.metadata signatureFormatCurrent, [])) := by
    have format : sealedPins.metadata.getD "merkle_signature_format" (.int 1) = .int signatureFormatCurrent := by
      rw [sealing]
      simp [Dict.getD]
    unfold declaredPayload
    simp only [format, pyEq_int, if_true]
    rfl
  have kept : sealedPins.metadata.get "merkle_root_signature" = .str "sealed" := by
    rw [sealing]
    simp
  have root : (sealedPins.metadata.get "merkle_root").truthy = true := by
    rw [sealing]
    simpa using rooted
  have passed : pinningBackend.verify (merkleSignaturePayload sha256 sealedPins.metadata signatureFormatCurrent)
      (sealedPins.metadata.get "merkle_root_signature") "ledger.pub" = .ok ⟨true, none⟩ := by
    rw [kept]
    simp [pinningBackend, signed]
  have carried : (sealedPins.metadata.get "merkle_root_signature").truthy = true := by
    rw [kept]
    rfl
  exact verifyMerkleSignature_passed carried root rfl declared passed rfl

theorem signed_claims_bound_lowered :
    (sealedPins.metadata.get "merkle_root_signature").truthy = true ∧
    ((∃ source ∈ [pinningLayer], SameSigned sealedPins source ∧
      (Pins sha256 sealedPins "F-1" (pinnedFinding.set "severity" (.str "low")) ↔
        SameClaim (pinnedFinding.set "severity" (.str "low")) pinnedFinding)) ∨
    ∃ pair, findCollision sha256 (claimMessages (fun _ _ => pinnedFinding) [pinningLayer] "F-1"
        (pinnedFinding.set "severity" (.str "low")) ++ bindingMessages sha256 [pinningLayer] sealedPins) = some pair ∧
      IsCollision sha256 pair) := by
  rcases sealedPins_eq with ⟨stamped, dropped, accepted, sealing, -⟩
  have carried : (sealedPins.metadata.get "merkle_root_signature").truthy = true := by
    rw [sealing]
    simp [Json.truthy]
  have kept : pinningLayer.metadata.get "claim_hashes" =
      .obj [("F-1", .str (computeClaimHash sha256 pinnedFinding))] := rfl
  have pins : sealedPins.metadata.get "claim_hashes" = pinningLayer.metadata.get "claim_hashes" := by
    rw [← get_stamped_of_ne accepted (show "claim_hashes" ∉ stampKeys by decide), sealing]
    simp
  refine ⟨carried, signed_claims_bound sha256 [pinningLayer] sealedPins pinningSigners false "ledger.pub"
    pinningBackend ?_ carried sealedPins_intact sealedPins_verifies (fun _ _ => pinnedFinding) ?_
    [("F-1", .str (computeClaimHash sha256 pinnedFinding))] "F-1" (pins.trans kept) rfl _⟩
  · intro payload signature result verified valid
    cases verified
    have both := Bool.and_eq_true_iff.mp valid
    exact List.contains_iff_mem.mp both.1
  · intro source member hashes ref hash held found
    rw [List.mem_singleton] at member
    subst member
    rw [kept] at held
    cases held
    exact (Prod.mk.inj (List.mem_singleton.mp (Dict.lookup_mem found))).2

section Carried

variable {event old new : Dict} {events : List Dict} {out : Carried}

def carriedBy (event : Dict) : Outcome Carried := do
  let restates ← isRestatement event
  if restates then return [] else addFinding [] event

theorem addFinding_ok {next : Carried} :
    addFinding out event = .ok next ↔ ∃ entry, addFinding [] event = .ok entry ∧ next = entry ++ out := by
  unfold addFinding
  cases event.get "finding" with
  | obj finding =>
    by_cases named : (Dict.get finding "id").truthy = false
    · simp [named, pure, Except.pure, eq_comm]
    · by_cases plain : hashable (Dict.get finding "id") = true
      · simp [named, plain, require, bind, Except.bind, pure, Except.pure, eq_comm]
      · simp [named, plain, require, bind, Except.bind]
  | _ => simp [pure, Except.pure, eq_comm]

theorem foldlM_addFinding {claims : List Dict} {start : Carried} :
    claims.foldlM addFinding start = .ok out ↔
      ∃ entries, claims.mapM (addFinding []) = .ok entries ∧ out = entries.reverse.flatten ++ start := by
  induction claims generalizing start with
  | nil => simp [pure, Except.pure, eq_comm]
  | cons event claims ih =>
    rw [List.foldlM_cons, List.mapM_cons, bind_ok_iff]
    constructor
    · rintro ⟨middle, first, later⟩
      rcases addFinding_ok.mp first with ⟨entry, added, rfl⟩
      rcases ih.mp later with ⟨entries, walked, rfl⟩
      refine ⟨entry :: entries, ?_, by simp⟩
      exact bind_ok_iff.mpr ⟨entry, added, bind_ok_iff.mpr ⟨entries, walked, rfl⟩⟩
    · rintro ⟨all, mapped, rfl⟩
      rcases bind_ok_iff.mp mapped with ⟨entry, added, mapped⟩
      rcases bind_ok_iff.mp mapped with ⟨entries, walked, made⟩
      cases made
      exact ⟨entry ++ start, addFinding_ok.mpr ⟨entry, added, rfl⟩, ih.mpr ⟨entries, walked, by simp⟩⟩

theorem findingsFromEvents_ok : findingsFromEvents events = .ok out ↔
    ∃ entries, events.mapM carriedBy = .ok entries ∧ out = entries.reverse.flatten := by
  have walked : findingsFromEvents events = .ok out ↔ ∃ claims, applyRestatements events = .ok claims ∧
      ∃ entries, claims.mapM (addFinding []) = .ok entries ∧ out = entries.reverse.flatten := by
    rw [findingsFromEvents, bind_ok_iff]
    simp only [foldlM_addFinding, List.append_nil]
  rw [walked]
  clear walked
  induction events generalizing out with
  | nil => simp [applyRestatements, pure, Except.pure]
  | cons event events ih =>
    rw [applyRestatements, List.mapM_cons]
    constructor
    · rintro ⟨claims, applied, entries, mapped, rfl⟩
      rcases bind_ok_iff.mp applied with ⟨restates, tested, applied⟩
      rcases bind_ok_iff.mp applied with ⟨later, rest, made⟩
      cases made
      cases restates with
      | true =>
        rcases ih.mp ⟨later, rest, entries, mapped, rfl⟩ with ⟨others, asked, same⟩
        refine ⟨[] :: others, bind_ok_iff.mpr ⟨[], ?_, bind_ok_iff.mpr ⟨others, asked, rfl⟩⟩, by simp [same]⟩
        exact bind_ok_iff.mpr ⟨true, tested, rfl⟩
      | false =>
        rw [if_neg (by decide), List.mapM_cons] at mapped
        rcases bind_ok_iff.mp mapped with ⟨entry, added, mapped⟩
        rcases bind_ok_iff.mp mapped with ⟨behind, walked, made⟩
        cases made
        rcases ih.mp ⟨later, rest, behind, walked, rfl⟩ with ⟨others, asked, same⟩
        refine ⟨entry :: others, bind_ok_iff.mpr ⟨entry, ?_, bind_ok_iff.mpr ⟨others, asked, rfl⟩⟩, by simp [same]⟩
        exact bind_ok_iff.mpr ⟨false, tested, added⟩
    · rintro ⟨all, asked, rfl⟩
      rcases bind_ok_iff.mp asked with ⟨entry, brought, asked⟩
      rcases bind_ok_iff.mp asked with ⟨others, answered, made⟩
      cases made
      rcases bind_ok_iff.mp brought with ⟨restates, tested, brought⟩
      rcases ih.mpr ⟨others, answered, rfl⟩ with ⟨later, rest, entries, mapped, same⟩
      refine ⟨_, bind_ok_iff.mpr ⟨restates, tested, bind_ok_iff.mpr ⟨later, rest, rfl⟩⟩, ?_⟩
      cases restates with
      | true =>
        cases brought
        exact ⟨entries, mapped, by simp [same]⟩
      | false =>
        refine ⟨entry :: entries, ?_, by simp [same]⟩
        rw [if_neg (by decide), List.mapM_cons]
        exact bind_ok_iff.mpr ⟨entry, brought, bind_ok_iff.mpr ⟨entries, mapped, rfl⟩⟩

theorem carriedBy_congr (identified : Identified old new) : carriedBy new = carriedBy old := by
  have finding : new.get "finding" = old.get "finding" := by
    rw [Dict.get, Dict.get, identified.frame _ (by decide) (by decide)]
  unfold carriedBy addFinding
  rw [isRestatement_congr identified.sameRestatement, finding]

theorem mapM_carriedBy_congr {kept : List Dict} (same : List.Forall₂ Identified events kept) :
    kept.mapM carriedBy = events.mapM carriedBy := by
  induction same with
  | nil => rfl
  | cons identified _ ih => rw [List.mapM_cons, List.mapM_cons, carriedBy_congr identified, ih]

end Carried

/-- After any calls the findings that the events carry are those they carried before, behind those of the events that
    the calls appended: none is lost, and the later of two wins. -/
theorem carried_findings_grow (env : Env) (layer : Layer) (calls : List Call) :
    ∃ kept added, (run (step env) layer calls).events = kept ++ added ∧ List.Forall₂ Identified layer.events kept ∧
      ∀ out, findingsFromEvents (run (step env) layer calls).events = .ok out ↔
        ∃ before newer, findingsFromEvents layer.events = .ok before ∧ findingsFromEvents added = .ok newer ∧
          out = newer ++ before := by
  rcases (@run_grows env layer calls).split with ⟨kept, added, whole, same, -⟩
  refine ⟨kept, added, whole, same, fun out => ?_⟩
  rw [whole, findingsFromEvents_ok, List.mapM_append, mapM_carriedBy_congr same]
  constructor
  · rintro ⟨entries, asked, rfl⟩
    rcases bind_ok_iff.mp asked with ⟨first, before, asked⟩
    rcases bind_ok_iff.mp asked with ⟨second, newer, made⟩
    cases made
    exact ⟨first.reverse.flatten, second.reverse.flatten, findingsFromEvents_ok.mpr ⟨first, before, rfl⟩,
      findingsFromEvents_ok.mpr ⟨second, newer, rfl⟩, by simp⟩
  · rintro ⟨before, newer, earlier, later, rfl⟩
    rcases findingsFromEvents_ok.mp earlier with ⟨first, asked, rfl⟩
    rcases findingsFromEvents_ok.mp later with ⟨second, askedToo, rfl⟩
    exact ⟨first ++ second, bind_ok_iff.mpr ⟨first, asked, bind_ok_iff.mpr ⟨second, askedToo, rfl⟩⟩, by simp⟩

end LedgerProof
