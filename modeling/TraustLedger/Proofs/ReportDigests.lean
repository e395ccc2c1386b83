import TraustLedger.Library.Respelling
import TraustLedger.Library.OrderedDicts
import TraustLedger.Proofs.ArtifactOwnership
import TraustLedger.Proofs.EpochChecks
import TraustLedger.Proofs.SigningDoors
import TraustLedger.Proofs.StaleSignatures
import TraustLedger.Reports

namespace LedgerProof

open Hashing Python Runs Logs Sha256 LedgerModel

variable {H : HashFunction} {made : String → Bytes → Prop} {layer : Layer} {signature : String}

structure CarriesSeal (metadata : Dict) (signature : String) : Prop where
  carried : metadata.get "merkle_root_signature" = .str signature
  spelled : signature ≠ ""
  format : Json.pyEq (metadata.get "merkle_signature_format") (.int signatureFormatCurrent) = true

def MovesReport (H : HashFunction) (metadata : Dict) : HelperCall → Prop
  | .report bytes ref => metadata.get "audit_report_sha256" ≠ .str (hexDigest H bytes) ∨
      ∃ place, ref = some place ∧ metadata.get "audit_report_ref" ≠ .str place
  | .artifacts .. => False

def digestsAfter (H : HashFunction) (recorded : Json) : List HelperCall → Json
  | [] => recorded
  | .report .. :: calls => digestsAfter H recorded calls
  | .artifacts directory layerName :: calls => digestsAfter H (.obj (freshDigests H directory layerName)) calls

section Metadata

variable {metadata : Dict}

theorem lookup_of_get {key text : String} (held : metadata.get key = .str text) :
    metadata.lookup key = some (.str text) := by
  cases found : metadata.lookup key with
  | none => simp [Dict.get, found] at held
  | some value =>
    rw [Dict.get_eq_of_lookup found] at held
    rw [held]

theorem lookup_dropSignature {key : String} (other : key ∉ signatureKeys) :
    (dropSignature metadata).lookup key = metadata.lookup key := by
  simp only [signatureKeys, List.mem_cons, List.not_mem_nil, or_false, not_or] at other
  simp [dropSignature, signatureKeys, other]

theorem CarriesSeal.stale (carries : CarriesSeal metadata signature) :
    dropSignatureNowStale metadata = .ok (dropSignature metadata) := by
  have number := Json.number_of_pyEq carries.format
  have held : (metadata.get "merkle_signature_format").truthy = true :=
    Json.truthy_of_number number (by decide)
  have converted := toInt_of_pyInt (Json.pyInt_of_number number)
  have signed : (metadata.get "merkle_root_signature").truthy = true := by
    rw [carries.carried]
    simpa [Json.truthy] using carries.spelled
  unfold dropSignatureNowStale
  simp only [held, if_true, converted, signed]
  rfl

theorem dropSignatureNowStale_absent (absent : metadata.get "merkle_signature_format" = .null) :
    dropSignatureNowStale metadata = .ok metadata := by
  unfold dropSignatureNowStale
  rw [absent]
  rfl

theorem CarriesSeal.congr {next : Dict} (carries : CarriesSeal metadata signature)
    (same : ∀ key ∈ signatureKeys, next.get key = metadata.get key) : CarriesSeal next signature where
  carried := by rw [same _ (by decide), carries.carried]
  spelled := carries.spelled
  format := by rw [same _ (by decide), carries.format]

def reportKeys : List String := ["audit_report_sha256", "audit_report_ref"]

theorem stampReportReference_settled {bytes : Bytes} {ref : Option String}
    (settled : ¬ MovesReport H metadata (.report bytes ref)) :
    stampReportReference H metadata bytes ref =
      .ok (metadata.set "audit_report_sha256" (.str (hexDigest H bytes)), false) := by
  simp only [MovesReport, not_or, not_not, not_exists, not_and] at settled
  rcases settled with ⟨digest, places⟩
  unfold stampReportReference
  cases ref with
  | none => simp [digest, pure, Except.pure]
  | some place => simp [digest, places place rfl, pure, Except.pure]

theorem stampReportReference_moved {bytes : Bytes} {ref : Option String}
    (moved : MovesReport H metadata (.report bytes ref)) :
    ∃ placed : Dict, (∀ key, key ∉ reportKeys → placed.lookup key = metadata.lookup key) ∧
      stampReportReference H metadata bytes ref =
        (dropSignatureNowStale placed).map fun unsealed => (unsealed, true) := by
  have elsewhere : ∀ key, key ∉ reportKeys →
      (metadata.set "audit_report_sha256" (.str (hexDigest H bytes))).lookup key = metadata.lookup key := by
    intro key other
    rw [Dict.lookup_set, if_neg fun same => other (by simp [reportKeys, same])]
  have ended : ∀ placed : Dict, (do
      let unsealed ← dropSignatureNowStale placed
      return (unsealed, true)) = (dropSignatureNowStale placed).map fun unsealed => (unsealed, true) := by
    intro placed
    cases dropSignatureNowStale placed <;> rfl
  unfold stampReportReference
  cases ref with
  | none =>
    have digest : metadata.get "audit_report_sha256" ≠ .str (hexDigest H bytes) := by
      rcases moved with digest | ⟨place, given, -⟩
      · exact digest
      · cases given
    exact ⟨_, elsewhere, by simp [digest, ended]⟩
  | some place =>
    by_cases same : metadata.get "audit_report_ref" = .str place
    · have digest : metadata.get "audit_report_sha256" ≠ .str (hexDigest H bytes) := by
        rcases moved with digest | ⟨other, given, differs⟩
        · exact digest
        · cases given
          exact absurd same differs
      exact ⟨_, elsewhere, by simp [digest, same, ended]⟩
    · refine ⟨(metadata.set "audit_report_sha256" (.str (hexDigest H bytes))).set "audit_report_ref" (.str place),
        ?_, by simp [same, ended]⟩
      intro key other
      rw [Dict.lookup_set, if_neg fun same => other (by simp [reportKeys, same]), elsewhere key other]

theorem freshDigests_texts (directory : Listing) (layerName : String) :
    ∀ entry ∈ freshDigests H directory layerName, ∃ text, entry.2 = .str text := by
  intro entry member
  rcases List.mem_map.mp (Dict.mem_ofList member) with ⟨file, -, rfl⟩
  exact ⟨_, rfl⟩

theorem stampArtifactDigests_elsewhere {directory : Listing} {layerName key : String}
    (other : key ≠ "artifact_digests") :
    (stampArtifactDigests H metadata directory layerName).1.lookup key = metadata.lookup key := by
  unfold stampArtifactDigests
  simp only
  split_ifs
  · rfl
  · simp [other]
  · simp [other]

theorem stampArtifactDigests_recorded (directory : Listing) (layerName : String) :
    SameOrEmpty ((stampArtifactDigests H metadata directory layerName).1.get "artifact_digests")
      (.obj (freshDigests H directory layerName)) := by
  unfold stampArtifactDigests
  simp only
  split_ifs with held found
  · exact Or.inl (Json.eq_of_pyEq_texts held (freshDigests_texts directory layerName))
  · exact Or.inl (by simp)
  · exact Or.inr ⟨by simp [Json.truthy], by simpa [Json.truthy] using found⟩

theorem get_of_getD {key : String} {default value : Json} (held : metadata.getD key default = value)
    (other : default ≠ value) : metadata.get key = value := by
  unfold Dict.getD at held
  unfold Dict.get
  cases found : metadata.lookup key with
  | none =>
    rw [found] at held
    exact absurd held other
  | some value =>
    rw [found] at held
    exact held

theorem signatureDocument_leafFormat {left right : Dict}
    (same : signatureDocument H left signatureFormatCurrent = signatureDocument H right signatureFormatCurrent) :
    left.getD "leaf_format" (.int 1) = right.getD "leaf_format" (.int 1) := by
  have format := congrArg (List.lookup "leaf_format") same
  simpa [signatureDocument, signatureFormatCurrent, List.lookup_cons] using format

theorem SameOrEmpty.symm {left right : Json} (same : SameOrEmpty left right) : SameOrEmpty right left := by
  rcases same with same | ⟨leftEmpty, rightEmpty⟩
  · exact Or.inl same.symm
  · exact Or.inr ⟨rightEmpty, leftEmpty⟩

end Metadata

/-- The layer lost its signature to a helper, and its log and epoch stand as they did. -/
structure Unsealed (layer edited : Layer) : Prop where
  signature : edited.metadata.get "merkle_root_signature" = .null
  format : edited.metadata.get "merkle_signature_format" = .null
  events : edited.events = layer.events
  epoch : edited.metadata.lookup "merkle_epoch" = layer.metadata.lookup "merkle_epoch"

/-- The helpers left the signature, and of what it covers they wrote the artifact digests only. -/
structure Intact (H : HashFunction) (layer : Layer) (calls : List HelperCall) (edited : Layer) : Prop where
  events : edited.events = layer.events
  elsewhere : ∀ key, key ≠ "artifact_digests" → edited.metadata.lookup key = layer.metadata.lookup key
  digests : SameOrEmpty (edited.metadata.get "artifact_digests")
    (digestsAfter H (layer.metadata.get "artifact_digests") calls)

theorem Unsealed.step {edited : Layer} (unsealed : Unsealed layer edited) (call : HelperCall) :
    ∃ next, helperStep H edited call = .ok next ∧ Unsealed layer next := by
  -- whatever is written outside the three keys the invariant reads
  have kept : ∀ metadata : Dict,
      (∀ key ∈ ["merkle_root_signature", "merkle_signature_format", "merkle_epoch"],
        metadata.lookup key = edited.metadata.lookup key) →
      Unsealed layer { edited with metadata := metadata } := by
    intro metadata same
    constructor
    · rw [Dict.get, same _ (by decide)]
      exact unsealed.signature
    · rw [Dict.get, same _ (by decide)]
      exact unsealed.format
    · exact unsealed.events
    · exact (same _ (by decide)).trans unsealed.epoch
  have foreign : ∀ key ∈ ["merkle_root_signature", "merkle_signature_format", "merkle_epoch"],
      key ≠ "audit_report_sha256" ∧ key ∉ reportKeys ∧ key ≠ "artifact_digests" := by
    decide
  cases call with
  | report bytes ref =>
    by_cases moved : MovesReport H edited.metadata (.report bytes ref)
    · rcases stampReportReference_moved moved with ⟨placed, elsewhere, outcome⟩
      have absent : placed.get "merkle_signature_format" = .null := by
        rw [Dict.get, elsewhere _ (by decide)]
        exact unsealed.format
      rw [dropSignatureNowStale_absent absent] at outcome
      refine ⟨{ edited with metadata := placed }, ?_, kept placed fun key member => ?_⟩
      · rw [helperStep, outcome]
        rfl
      · exact elsewhere key (foreign key member).2.1
    · refine ⟨_, by rw [helperStep, stampReportReference_settled moved]; rfl, kept _ fun key member => ?_⟩
      rw [Dict.lookup_set, if_neg (foreign key member).1]
  | artifacts directory layerName =>
    exact ⟨_, rfl, kept _ fun key member => stampArtifactDigests_elsewhere (foreign key member).2.2⟩

theorem CarriesSeal.moved (carries : CarriesSeal layer.metadata signature) {call : HelperCall}
    (moved : MovesReport H layer.metadata call) :
    ∃ next, helperStep H layer call = .ok next ∧ Unsealed layer next := by
  cases call with
  | report bytes ref =>
    rcases stampReportReference_moved moved with ⟨placed, elsewhere, outcome⟩
    have carriesPlaced : CarriesSeal placed signature := by
      apply carries.congr
      intro key member
      rw [Dict.get, Dict.get, elsewhere key (by revert key; decide)]
    rw [carriesPlaced.stale] at outcome
    refine ⟨{ layer with metadata := dropSignature placed }, by rw [helperStep, outcome]; rfl, ?_⟩
    constructor
    · simp [get_dropSignature, signatureKeys]
    · simp [get_dropSignature, signatureKeys]
    · rfl
    · rw [lookup_dropSignature (by decide), elsewhere _ (by decide)]
  | artifacts directory layerName => cases moved

theorem helperStep_settled {call : HelperCall} (settled : ¬ MovesReport H layer.metadata call) :
    ∃ next, helperStep H layer call = .ok next ∧ Intact H layer [call] next := by
  cases call with
  | report bytes ref =>
    have digest : layer.metadata.get "audit_report_sha256" = .str (hexDigest H bytes) := by
      by_contra other
      exact settled (Or.inl other)
    have unchanged : ∀ key, (layer.metadata.set "audit_report_sha256" (.str (hexDigest H bytes))).lookup key =
        layer.metadata.lookup key := by
      intro key
      rw [Dict.lookup_set]
      split
      · next same => rw [same, lookup_of_get digest]
      · rfl
    refine ⟨{ layer with metadata := layer.metadata.set "audit_report_sha256" (.str (hexDigest H bytes)) }, ?_, rfl,
      fun key _ => unchanged key, ?_⟩
    · rw [helperStep, stampReportReference_settled settled]
      rfl
    · exact Or.inl (by rw [Dict.get, unchanged]; rfl)
  | artifacts directory layerName =>
    exact ⟨_, rfl, rfl, fun key other => stampArtifactDigests_elsewhere other,
      stampArtifactDigests_recorded directory layerName⟩

theorem digestsAfter_congr {left right : Json} (same : SameOrEmpty left right) (calls : List HelperCall) :
    SameOrEmpty (digestsAfter H left calls) (digestsAfter H right calls) := by
  induction calls generalizing left right with
  | nil => exact same
  | cons call calls ih =>
    cases call with
    | report bytes ref => exact ih same
    | artifacts directory layerName => exact Or.inl rfl

theorem digestsAfter_cons (recorded : Json) (call : HelperCall) (calls : List HelperCall) :
    digestsAfter H recorded (call :: calls) = digestsAfter H (digestsAfter H recorded [call]) calls := by
  cases call <;> rfl

section Runs

variable {mid edited : Layer} {call : HelperCall} {calls : List HelperCall}

theorem Intact.movesReport (intact : Intact H layer calls mid) (other : HelperCall) :
    MovesReport H mid.metadata other ↔ MovesReport H layer.metadata other := by
  cases other with
  | report bytes ref =>
    have digest : mid.metadata.get "audit_report_sha256" = layer.metadata.get "audit_report_sha256" := by
      rw [Dict.get, Dict.get, intact.elsewhere _ (by decide)]
    have place : mid.metadata.get "audit_report_ref" = layer.metadata.get "audit_report_ref" := by
      rw [Dict.get, Dict.get, intact.elsewhere _ (by decide)]
    rw [MovesReport, MovesReport, digest, place]
  | artifacts directory layerName => exact Iff.rfl

theorem Intact.carries (intact : Intact H layer calls mid) (carries : CarriesSeal layer.metadata signature) :
    CarriesSeal mid.metadata signature := by
  apply carries.congr
  intro key member
  rw [Dict.get, Dict.get, intact.elsewhere key (by revert key; decide)]

theorem Intact.cons (first : Intact H layer [call] mid) (later : Intact H mid calls edited) :
    Intact H layer (call :: calls) edited where
  events := later.events.trans first.events
  elsewhere := fun key other => (later.elsewhere key other).trans (first.elsewhere key other)
  digests := by
    rw [digestsAfter_cons]
    exact later.digests.trans (digestsAfter_congr first.digests calls)

theorem Unsealed.of_intact (first : Intact H layer [call] mid) (unsealed : Unsealed mid edited) :
    Unsealed layer edited where
  signature := unsealed.signature
  format := unsealed.format
  events := unsealed.events.trans first.events
  epoch := unsealed.epoch.trans (first.elsewhere _ (by decide))

/-- The helpers return, and the signature is gone exactly when one of them was given another report or place than
    the layer held at the start: until then the layer holds what it held. -/
theorem helper_run (carries : CarriesSeal layer.metadata signature) (calls : List HelperCall) :
    ∃ edited, calls.foldlM (helperStep H) layer = .ok edited ∧
      (((∃ call ∈ calls, MovesReport H layer.metadata call) ∧ Unsealed layer edited) ∨
        ((∀ call ∈ calls, ¬ MovesReport H layer.metadata call) ∧ Intact H layer calls edited)) := by
  induction calls generalizing layer with
  | nil => exact ⟨layer, rfl, Or.inr ⟨by simp, rfl, fun _ _ => rfl, Or.inl rfl⟩⟩
  | cons call calls ih =>
    by_cases moved : MovesReport H layer.metadata call
    · rcases carries.moved moved with ⟨mid, stepped, unsealed⟩
      rcases foldlM_ok (fun call _ held kept => Unsealed.step kept call) unsealed with ⟨edited, folded, final⟩
      refine ⟨edited, ?_, Or.inl ⟨⟨call, List.mem_cons_self, moved⟩, final⟩⟩
      rw [List.foldlM_cons, stepped]
      exact folded
    · rcases helperStep_settled moved with ⟨mid, stepped, intact⟩
      rcases ih (intact.carries carries) with ⟨edited, folded, outcome⟩
      refine ⟨edited, by rw [List.foldlM_cons, stepped]; exact folded, ?_⟩
      rcases outcome with ⟨⟨other, member, movedLater⟩, unsealed⟩ | ⟨settled, later⟩
      · refine Or.inl ⟨⟨other, List.mem_cons_of_mem _ member, ?_⟩, unsealed.of_intact intact⟩
        exact (intact.movesReport other).mp movedLater
      · refine Or.inr ⟨?_, intact.cons later⟩
        rw [List.forall_mem_cons]
        refine ⟨moved, fun other member => ?_⟩
        rw [← intact.movesReport other]
        exact settled other member

end Runs

section Stamping

variable {signers : Signers} {environ : Environ} (unconfigured : Unconfigured (signingConfigFromEnv environ))

include unconfigured

theorem signIfConfigured_unconfigured (layer : Layer) :
    (signIfConfigured H signers (signingConfigFromEnv environ) layer).1 = layer := by
  unfold Unconfigured at unconfigured
  unfold signIfConfigured
  generalize signingConfigFromEnv environ = config at unconfigured
  by_cases keyed : config.method = "" ∨ config.method = "keypair"
  · rw [if_pos keyed] at unconfigured
    rcases keyed with method | method
    · simp [method, unconfigured]
    · simp [method, unconfigured]
  · rw [if_neg keyed] at unconfigured
    rw [not_or] at keyed
    simp [keyed.1, keyed.2, unconfigured]

theorem stampAndSign_unconfigured (layer : Layer) :
    (stampAndSign H signers environ layer).map (fun outcome => outcome.1) =
      (stampMerkleMetadata H layer).map fun outcome => outcome.1 := by
  unfold stampAndSign
  cases stampMerkleMetadata H layer with
  | error failure => rfl
  | ok outcome =>
    rcases outcome with ⟨stamped, dropped⟩
    exact congrArg Except.ok (signIfConfigured_unconfigured unconfigured stamped)

theorem stampMerkleMetadata_of_unconfigured {layer final : Layer} {attempt : SignAttempt} {stale : Bool}
    (accepted : stampAndSign H signers environ layer = .ok (final, attempt, stale)) :
    ∃ dropped, stampMerkleMetadata H layer = .ok (final, dropped) := by
  have same := @stampAndSign_unconfigured H signers environ unconfigured layer
  rw [accepted] at same
  cases stamp : stampMerkleMetadata H layer with
  | error failure =>
    rw [stamp] at same
    cases same
  | ok outcome =>
    rcases outcome with ⟨stamped, dropped⟩
    rw [stamp] at same
    cases same
    exact ⟨dropped, rfl⟩

theorem stampAndSign_returns {layer : Layer} (stampable : Stampable layer) :
    ∃ final attempt stale, stampAndSign H signers environ layer = .ok (final, attempt, stale) := by
  rcases (@stamp_ok_iff H layer).mpr stampable with ⟨stamped, dropped, stamp⟩
  have same := @stampAndSign_unconfigured H signers environ unconfigured layer
  rw [stamp] at same
  cases outcome : stampAndSign H signers environ layer with
  | error failure =>
    rw [outcome] at same
    cases same
  | ok answer => exact ⟨answer.1, answer.2.1, answer.2.2, rfl⟩

end Stamping

theorem Stampable.congr {edited : Layer} (stampable : Stampable layer) (events : edited.events = layer.events)
    (epoch : edited.metadata.lookup "merkle_epoch" = layer.metadata.lookup "merkle_epoch") : Stampable edited := by
  have raw := rawEpoch_congr epoch
  rw [Stampable, raw, epochOf_congr raw, events]
  exact stampable

section Seals

variable {calls : List HelperCall} {edited final : Layer} {dropped : Bool} (intact : Intact H layer calls edited)

include intact

theorem Intact.get {key : String} (other : key ≠ "artifact_digests") :
    edited.metadata.get key = layer.metadata.get key := by
  rw [Dict.get, Dict.get, intact.elsewhere key other]

theorem Intact.raw : rawEpoch edited = rawEpoch layer := rawEpoch_congr (intact.elsewhere _ (by decide))

theorem Intact.before : preEpoch edited = preEpoch layer := preEpoch_congr intact.raw intact.events

theorem Intact.after : postEpoch edited = postEpoch layer := postEpoch_congr intact.raw intact.events

variable (stamp : stampMerkleMetadata H edited = .ok (final, dropped))

include stamp

theorem Intact.dropped_iff : dropped = true ↔ RootMoves H layer := by
  rcases stampMerkleMetadata_ok stamp with ⟨-, -, -, -, moved⟩
  rw [moved, intact.get (by decide), intact.after, RootMoves]
  simp

theorem Intact.sameSigned (same : SameOrEmpty (digestsAfter H (layer.metadata.get "artifact_digests") calls)
    (layer.metadata.get "artifact_digests")) : SameSigned final layer := by
  apply (sameSigned_stamped stamp).trans
  constructor
  · exact intact.raw
  · exact intact.before
  · rw [intact.after]
  · exact Or.inl (intact.get (by decide))
  · exact intact.get (by decide)
  · exact intact.digests.trans same

theorem Intact.of_payload {messages : List Bytes} (free : CollisionFree H messages)
    (layerSub : signingMessages H layer signatureFormatCurrent ⊆ messages)
    (finalSub : signingMessages H final signatureFormatCurrent ⊆ messages)
    (same : payloadOf H final = payloadOf H layer) :
    MerkleFields H layer ∧ SameOrEmpty (digestsAfter H (layer.metadata.get "artifact_digests") calls)
      (layer.metadata.get "artifact_digests") := by
  have documents := free _ (finalSub (by simp [signingMessages])) _ (layerSub (by simp [signingMessages])) same
  have document := Json.obj.inj (dumps_injective documents)
  rcases signatureDocument_fields document with ⟨root, -, size, checkpoint, -, -, artifacts⟩
  have fields := (stamped_of_stamp stamp).fields
  have epochs : epochOf final = epochOf layer := (epochOf_stamped stamp).trans (epochOf_congr intact.raw)
  have after : postEpoch final = postEpoch layer := (postEpoch_stamped stamp).trans intact.after
  have before : preEpoch final = preEpoch layer := (preEpoch_stamped stamp).trans intact.before
  constructor
  · constructor
    · rw [← root, fields.root, after]
    · rw [← size, fields.size, after]
    · have formats := signatureDocument_leafFormat document
      rw [getD_eq_get (by simp [fields.format]), fields.format] at formats
      exact get_of_getD formats.symm (by decide)
    · rw [← checkpoint, fields.checkpoint, epochs, before]
  · have bound := digestIfHeld_binding free (finalSub (by simp [signingMessages]))
      (layerSub (by simp [signingMessages])) artifacts
    rw [get_stamped_of_ne stamp (by decide)] at bound
    exact intact.digests.symm.trans bound

end Seals

def HonestSeal (H : HashFunction) (made : String → Bytes → Prop) (layer : Layer) : Prop :=
  layer.metadata.get "merkle_root_signature" = .null ∨ SignedOver H made layer

/-- A call moves the report, so that its helper drops the signature; or the root is not the log's, so that the
    stamp drops it; or the stamp finds its own fields and the last look at the artifacts found what was recorded. -/
def SealSurvives (H : HashFunction) (layer : Layer) (calls : List HelperCall) : Prop :=
  (∃ call ∈ calls, MovesReport H layer.metadata call) ∨ RootMoves H layer ∨
    (MerkleFields H layer ∧ SameOrEmpty (digestsAfter H (layer.metadata.get "artifact_digests") calls)
      (layer.metadata.get "artifact_digests"))

def sealMessages (H : HashFunction) (layer final : Layer) : List Bytes :=
  signingMessages H layer signatureFormatCurrent ++ signingMessages H final signatureFormatCurrent

theorem Unsealed.honest {edited final : Layer} {dropped : Bool} (unsealed : Unsealed layer edited)
    (stamp : stampMerkleMetadata H edited = .ok (final, dropped)) : HonestSeal H made final := by
  apply Or.inl
  rw [signature_stamped stamp, unsealed.signature, ite_self]

section Outcome

variable {calls : List HelperCall} {edited final : Layer} {dropped : Bool} (intact : Intact H layer calls edited)
  (carries : CarriesSeal layer.metadata signature) (stamp : stampMerkleMetadata H edited = .ok (final, dropped))

include intact carries stamp

theorem Intact.signature_kept (kept : ¬ RootMoves H layer) :
    final.metadata.get "merkle_root_signature" = .str signature := by
  have still : dropped = false := by
    rw [← Bool.not_eq_true, intact.dropped_iff stamp]
    exact kept
  rw [signature_stamped stamp, still, intact.get (by decide)]
  exact carries.carried

theorem Intact.honest (sealing : made signature (payloadOf H layer))
    (settled : ∀ call ∈ calls, ¬ MovesReport H layer.metadata call)
    (survives : SealSurvives H layer calls) : HonestSeal H made final := by
  by_cases moves : RootMoves H layer
  · apply Or.inl
    rw [signature_stamped stamp, (intact.dropped_iff stamp).mpr moves]
    rfl
  · rcases survives with ⟨call, member, moved⟩ | moved | ⟨fields, digests⟩
    · exact absurd moved (settled call member)
    · exact absurd moved moves
    · refine Or.inr ⟨signature, intact.signature_kept carries stamp moves, ?_⟩
      rw [payloadOf_congr (stamped_of_stamp stamp).fields fields (intact.sameSigned stamp digests)]
      exact sealing

theorem Intact.survives (ideal : ∀ signature p q, made signature p → made signature q → p = q)
    (sealing : made signature (payloadOf H layer)) (free : CollisionFree H (sealMessages H layer final))
    (honest : HonestSeal H made final) : SealSurvives H layer calls := by
  by_cases moves : RootMoves H layer
  · exact Or.inr (Or.inl moves)
  · have held := intact.signature_kept carries stamp moves
    rcases honest with absent | ⟨own, carried, produced⟩
    · rw [held] at absent
      cases absent
    · rw [held] at carried
      cases carried
      have same := ideal _ _ _ produced sealing
      apply Or.inr
      apply Or.inr
      exact intact.of_payload stamp free (fun _ used => List.mem_append_left _ used)
        (fun _ used => List.mem_append_right _ used) same

end Outcome

/-- After any run of the helpers on a layer signed under format 4, and a stamp with no signer configured, the
    signature is honest where the run spares it; otherwise it is not, or two of the byte strings hashed into the two
    payloads collide and are found. -/
theorem report_helpers_seal (H : HashFunction) (made : String → Bytes → Prop)
    (ideal : ∀ signature p q, made signature p → made signature q → p = q) (layer : Layer) (signature : String)
    (carries : CarriesSeal layer.metadata signature) (sealing : made signature (payloadOf H layer))
    (calls : List HelperCall) (signers : Signers) (environ : Environ)
    (unconfigured : Unconfigured (signingConfigFromEnv environ)) :
    ∃ edited, calls.foldlM (helperStep H) layer = .ok edited ∧
      (Stampable layer → ∃ final attempt stale,
        stampAndSign H signers environ edited = .ok (final, attempt, stale)) ∧
      ∀ final attempt stale, stampAndSign H signers environ edited = .ok (final, attempt, stale) →
        (SealSurvives H layer calls → HonestSeal H made final) ∧
        ((HonestSeal H made final → SealSurvives H layer calls) ∨
          ∃ pair, findCollision H (sealMessages H layer final) = some pair ∧ IsCollision H pair) := by
  rcases @helper_run H layer signature carries calls with ⟨edited, folded, outcome⟩
  refine ⟨edited, folded, ?_, ?_⟩
  · intro stampable
    apply stampAndSign_returns unconfigured
    rcases outcome with ⟨-, unsealed⟩ | ⟨-, intact⟩
    · exact stampable.congr unsealed.events unsealed.epoch
    · exact stampable.congr intact.events (intact.elsewhere _ (by decide))
  · intro final attempt stale accepted
    rcases stampMerkleMetadata_of_unconfigured unconfigured accepted with ⟨dropped, stamp⟩
    rcases outcome with ⟨moved, unsealed⟩ | ⟨settled, intact⟩
    · exact ⟨fun _ => unsealed.honest stamp, Or.inl fun _ => Or.inl moved⟩
    · constructor
      · exact intact.honest carries stamp sealing settled
      · apply holds_or_findCollision
        intro free
        exact intact.survives carries stamp ideal sealing free

def sealedScan : Layer := run (stepWith referenceEnv) oneClaim [signedScan]

theorem sealedScan_carries :
    CarriesSeal sealedScan.metadata (hex (payloadOf sha256 sealedScan)) := by
  have facts : sealedScan.metadata.get "merkle_root_signature" = .str (hex (payloadOf sha256 sealedScan)) ∧
      hex (payloadOf sha256 sealedScan) ≠ "" ∧
      sealedScan.metadata.get "merkle_signature_format" = .int signatureFormatCurrent := by
    decide +kernel
  rcases facts with ⟨carried, spelled, format⟩
  exact ⟨carried, spelled, by rw [format, Json.pyEq_self]⟩

def exported : Listing where
  entries := [regularFile "acme-findings-layer.json" [], regularFile "acme-export.csv" [1]]
  distinct := by decide

def stampExport : HelperCall := .artifacts exported "acme-findings-layer.json"

def noSettings : Environ := fun _ => none

theorem report_helpers_seal_moved : ∃ edited,
    [stampExport, .report [2] (some "s3://reports/2")].foldlM (helperStep sha256) sealedScan = .ok edited ∧
    (Stampable sealedScan → ∃ final attempt stale,
      stampAndSign sha256 spellingTools.signers noSettings edited = .ok (final, attempt, stale)) ∧
    ∀ final attempt stale,
      stampAndSign sha256 spellingTools.signers noSettings edited = .ok (final, attempt, stale) →
      (SealSurvives sha256 sealedScan [stampExport, .report [2] (some "s3://reports/2")] →
        HonestSeal sha256 spells final) ∧
      ((HonestSeal sha256 spells final →
          SealSurvives sha256 sealedScan [stampExport, .report [2] (some "s3://reports/2")]) ∨
        ∃ pair, findCollision sha256 (sealMessages sha256 sealedScan final) = some pair ∧ IsCollision sha256 pair) :=
  report_helpers_seal sha256 spells spells_ideal sealedScan _ sealedScan_carries rfl _ spellingTools.signers noSettings
    rfl

/-- The export changes what the signature covers, its helper leaves the signature and the root does not move. -/
theorem stampExport_stale : CarriesSeal sealedScan.metadata (hex (payloadOf sha256 sealedScan)) ∧
    spells (hex (payloadOf sha256 sealedScan)) (payloadOf sha256 sealedScan) ∧
    Unconfigured (signingConfigFromEnv noSettings) ∧
    ∃ edited final attempt stale, [stampExport].foldlM (helperStep sha256) sealedScan = .ok edited ∧
      stampAndSign sha256 spellingTools.signers noSettings edited = .ok (final, attempt, stale) ∧
      ¬ HonestSeal sha256 spells final := by
  have lying : okAnd ([stampExport].foldlM (helperStep sha256) sealedScan) (fun edited =>
      okAnd (stampAndSign sha256 spellingTools.signers noSettings edited) fun outcome =>
        decide (outcome.1.metadata.get "merkle_root_signature" = .str (hex (payloadOf sha256 sealedScan)) ∧
          payloadOf sha256 sealedScan ≠ payloadOf sha256 outcome.1)) = true := by
    decide +kernel
  rcases okAnd_iff.mp lying with ⟨edited, folded, lying⟩
  rcases okAnd_iff.mp lying with ⟨⟨final, attempt, stale⟩, stamped, lying⟩
  rcases of_decide_eq_true lying with ⟨carried, differs⟩
  refine ⟨sealedScan_carries, rfl, rfl, edited, final, attempt, stale, folded, stamped, ?_⟩
  intro honest
  rcases honest with absent | ⟨own, held, produced⟩
  · rw [carried] at absent
    cases absent
  · rw [carried] at held
    cases held
    exact differs (hex_injective produced)

end LedgerProof
