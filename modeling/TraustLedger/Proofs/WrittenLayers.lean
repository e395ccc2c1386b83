import TraustLedger.Proofs.DoorProofs

namespace LedgerProof

open Hashing Python Runs LedgerModel

variable {env : Env}

def fingerprintIndex (fingerprints : List (String × String)) : List (Json × Json) :=
  fingerprints.map fun entry => (.str entry.1, .str entry.2)

def batchEvents (env : Env) (actor : LayerActor) (events : List Dict) : List Dict :=
  events.map fun event => stampFingerprintAlgo (stampSourceOnEvent env actor event)

def cmdEvents (env : Env) (actor : LayerActor) (events : List Json) : List Dict :=
  events.filterMap fun
    | .obj event => some (stampSourceOnEvent env actor event)
    | _ => none

/-- The layer a call hands to `finalizeLayer`, and the moment it does so in. -/
inductive Draft (env : Env) (layer : Layer) : Call → Moment → Layer → Prop
  | restate {moment : Moment} {layerId rationale recordedAt target id : String} {block event : Dict}
      {actor : LayerActor} {draft : Layer}
      (gated : restatementEvent env moment block rationale actor recordedAt = .ok (target, event))
      (appending : appendRestatement env.hash layer event target (block.get "after") = .ok (draft, id)) :
      Draft env layer (.restate moment layerId block rationale actor recordedAt) moment draft
  | patch {moment : Moment} {layerId : String} {updates : Dict} :
      Draft env layer (.patch moment layerId updates) moment
        { layer with metadata := (applyUpdates layer.metadata updates).set "updated" (.str moment.nowText) }
  | submitEvent {moment : Moment} {rawKind findingRef validity id : String} {rawEvent payload : Dict}
      {actor : LayerActor} {kind : EventKind} {draft : Layer}
      (submitted : submittedEvent env moment kind rawEvent actor = .ok (findingRef, payload, validity))
      (appending : appendOne env.hash layer (resolveFingerprintFromLayer payload layer) = .ok (draft, id)) :
      Draft env layer (.submitEvent moment rawKind rawEvent actor) moment draft
  | submitBatch {moment : Moment} {layerId : String} {body : BatchSubmitRequest} {actor : LayerActor}
      {appended : Layer} {ids : List String} {queue : List Json}
      (appending : appendMany env.hash layer (batchEvents env actor body.events) = .ok (appended, ids)) :
      Draft env layer (.submitBatch moment layerId body actor) moment { appended with needsReview := queue }
  | stampIdentities {moment : Moment} {layerId : String} {fingerprints : List (String × String)} :
      Draft env layer (.stampIdentities moment layerId fingerprints) moment
        { layer with events := layer.events.map fun event => (attachIdentity (fingerprintIndex fingerprints) event).1 }
  | sign {moment : Moment} {layerId : String} : Draft env layer (.sign moment layerId) moment layer

/-- The calls that stamp the layer they store; a batch without events only queues its review items. -/
def Stamps : Call → Prop
  | .restate .. | .patch .. | .submitEvent .. | .stampIdentities .. | .sign .. | .signEndpoint .. => True
  | .submitBatch _ _ body _ => body.events ≠ []
  | .cmdSubmitEvents .. | .cmdSubmitQueue .. | .resolve .. => False

/-- What an accepted call stores: a finalized draft, the log `cmd_submit` leaves unfinalized, the layer the
    sign endpoint signs where it can, or the same log and metadata under another queue. -/
inductive Written (env : Env) (layer : Layer) : Call → Layer → Prop
  | finalized {call : Call} {moment : Moment} {draft next : Layer} {layerId root : String}
      (drafted : Draft env layer call moment draft)
      (finalizing : finalizeLayer env moment layerId draft = .ok (next, root)) : Written env layer call next
  | appended {layerId : String} {events : List Json} {actor : LayerActor} {next : Layer} {ids : List String}
      (appending : appendMany env.hash layer (cmdEvents env actor events) = .ok (next, ids)) :
      Written env layer (.cmdSubmitEvents layerId events actor) next
  | endpoint {moment : Moment} {layerId : String} {rekor : Bool} {next : Layer} {attempt : SignAttempt}
      (signing : signLayer env moment (if rekor then env.publishing else env.signers) none layer =
        .ok (next, attempt)) : Written env layer (.signEndpoint moment layerId rekor) next
  | queued {call : Call} {next : Layer} (metadata : next.metadata = layer.metadata)
      (events : next.events = layer.events) (unstamped : ¬ Stamps call) : Written env layer call next

theorem written_restate {moment : Moment} {layerId rationale recordedAt : String} {block : Dict}
    {actor : LayerActor} {layer next : Layer} {receipt : Receipt}
    (accepted : applyRestatement env moment layerId block rationale actor recordedAt layer = .ok (next, receipt)) :
    Written env layer (.restate moment layerId block rationale actor recordedAt) next := by
  unfold applyRestatement at accepted
  obtain ⟨⟨target, event⟩, gated, accepted⟩ := bind_ok_iff.mp accepted
  have mutation := gate_passed (mutate_ok accepted)
  obtain ⟨⟨draft, id⟩, appending, mutation⟩ := bind_ok_iff.mp mutation
  obtain ⟨⟨finalized, root⟩, finalizing, mutation⟩ := bind_ok_iff.mp mutation
  cases mutation
  rw [Dict.get_remove, if_neg (by decide)] at appending
  exact .finalized (.restate gated appending) finalizing

theorem written_patch {moment : Moment} {layerId : String} {updates : Dict} {layer next : Layer} {receipt : Receipt}
    (accepted : patchMetadata env moment layerId updates layer = .ok (next, receipt)) :
    Written env layer (.patch moment layerId updates) next := by
  have mutation := gate_passed (mutate_ok (rethrow_ok_iff.mp accepted))
  obtain ⟨⟨finalized, root⟩, finalizing, mutation⟩ := bind_ok_iff.mp mutation
  cases mutation
  exact .finalized .patch finalizing

theorem written_submitEvent {moment : Moment} {rawKind : String} {rawEvent : Dict} {actor : LayerActor}
    {layer next : Layer} {receipt : Receipt}
    (accepted : submitEvent env moment rawKind rawEvent actor layer = .ok (next, receipt)) :
    Written env layer (.submitEvent moment rawKind rawEvent actor) next := by
  have accepted := gate_passed (rethrow_ok_iff.mp accepted)
  obtain ⟨kind, -, accepted⟩ := bind_ok_iff.mp accepted
  obtain ⟨⟨findingRef, payload, validity⟩, submitted, accepted⟩ := bind_ok_iff.mp accepted
  have mutation := ite_bind_ok (gate_passed (mutate_ok accepted))
  obtain ⟨⟨draft, id⟩, appending, mutation⟩ := bind_ok_iff.mp mutation
  obtain ⟨⟨finalized, root⟩, finalizing, mutation⟩ := bind_ok_iff.mp mutation
  cases mutation
  exact .finalized (.submitEvent submitted appending) finalizing

theorem written_submitBatch {moment : Moment} {layerId : String} {body : BatchSubmitRequest} {actor : LayerActor}
    {layer next : Layer} {receipt : Receipt}
    (accepted : submitBatch env moment layerId body actor layer = .ok (next, receipt)) :
    Written env layer (.submitBatch moment layerId body actor) next := by
  have accepted := gate_passed (gate_passed (rethrow_ok_iff.mp accepted))
  simp only at accepted
  split at accepted
  · next none _ =>
    cases accepted
    exact .queued rfl rfl fun held => held (List.map_eq_nil_iff.mp none)
  · next none _ =>
    rw [queueEvents_layer (mutate_ok accepted)]
    exact .queued rfl rfl fun held => held (List.map_eq_nil_iff.mp none)
  · obtain ⟨appended, ids, root, appending, finalizing⟩ := submitAtomic_layer (mutate_ok accepted)
    exact .finalized (.submitBatch appending) finalizing

theorem written_cmdSubmitEvents {layerId : String} {events : List Json} {actor : LayerActor} {layer next : Layer}
    {receipt : Receipt} (accepted : cmdSubmitEvents env layerId events actor layer = .ok (next, receipt)) :
    Written env layer (.cmdSubmitEvents layerId events actor) next := by
  unfold cmdSubmitEvents at accepted
  simp only at accepted
  split at accepted
  · cases accepted
    exact .queued rfl rfl not_false
  · obtain ⟨⟨appended, ids⟩, appending, mutation⟩ := bind_ok_iff.mp (mutate_ok accepted)
    cases mutation
    exact .appended appending

theorem written_cmdSubmitQueue {layerId sourceRef : String} {queue : List Json} {actor : LayerActor}
    {layer next : Layer} {receipt : Receipt}
    (accepted : cmdSubmitQueue env layerId sourceRef queue actor layer = .ok (next, receipt)) :
    Written env layer (.cmdSubmitQueue layerId sourceRef queue actor) next := by
  unfold cmdSubmitQueue at accepted
  simp only at accepted
  split at accepted
  · cases accepted
    exact .queued rfl rfl not_false
  · rw [queueEvents_layer (mutate_ok accepted)]
    exact .queued rfl rfl not_false

theorem written_stampIdentities {moment : Moment} {layerId : String} {fingerprints : List (String × String)}
    {layer next : Layer} {receipt : Receipt × Nat}
    (accepted : stampEventIdentities env moment layerId fingerprints layer = .ok (next, receipt)) :
    Written env layer (.stampIdentities moment layerId fingerprints) next := by
  obtain ⟨⟨finalized, root⟩, finalizing, mutation⟩ := bind_ok_iff.mp (mutate_ok (rethrow_ok_iff.mp accepted))
  cases mutation
  rw [List.map_map] at finalizing
  exact .finalized .stampIdentities finalizing

theorem written_sign {moment : Moment} {layerId : String} {layer next : Layer} {receipt : Receipt}
    (accepted : sign env moment layerId layer = .ok (next, receipt)) :
    Written env layer (.sign moment layerId) next := by
  obtain ⟨⟨finalized, root⟩, finalizing, mutation⟩ := bind_ok_iff.mp (mutate_ok (rethrow_ok_iff.mp accepted))
  cases mutation
  exact .finalized .sign finalizing

theorem written_resolve {moment : Moment} {layerId : String} {key : Option Json} {decision note : String}
    {layer next : Layer} (accepted : resolve env moment layerId key decision note layer = .ok next) :
    Written env layer (.resolve moment layerId key decision note) next := by
  have accepted := gate_passed (gate_passed accepted)
  obtain ⟨itemKey, -, accepted⟩ := bind_ok_iff.mp accepted
  obtain ⟨⟨resolved, changed⟩, mutation, accepted⟩ := bind_ok_iff.mp accepted
  replace accepted := gate_passed accepted
  cases accepted
  obtain ⟨answer, resolving, mutation⟩ := bind_ok_iff.mp (mutate_ok (rethrow_ok_iff.mp mutation))
  cases answer with
  | none =>
    cases mutation
    exact .queued rfl rfl not_false
  | some closed =>
    cases mutation
    obtain ⟨metadata, events⟩ := resolveReviewItem_ok resolving
    exact .queued metadata events not_false

theorem step_written {layer next : Layer} {call : Call} (accepted : step env layer call = .ok next) :
    Written env layer call next := by
  cases call with
  | restate moment layerId block rationale actor recordedAt =>
    obtain ⟨receipt, accepted⟩ := map_fst_ok accepted
    exact written_restate accepted
  | patch moment layerId updates =>
    obtain ⟨receipt, accepted⟩ := map_fst_ok accepted
    exact written_patch accepted
  | submitEvent moment kind event actor =>
    obtain ⟨receipt, accepted⟩ := map_fst_ok accepted
    exact written_submitEvent accepted
  | submitBatch moment layerId body actor =>
    obtain ⟨receipt, accepted⟩ := map_fst_ok accepted
    exact written_submitBatch accepted
  | cmdSubmitEvents layerId events actor =>
    obtain ⟨receipt, accepted⟩ := map_fst_ok accepted
    exact written_cmdSubmitEvents accepted
  | cmdSubmitQueue layerId sourceRef queue actor =>
    obtain ⟨receipt, accepted⟩ := map_fst_ok accepted
    exact written_cmdSubmitQueue accepted
  | stampIdentities moment layerId fingerprints =>
    obtain ⟨receipt, accepted⟩ := map_fst_ok accepted
    exact written_stampIdentities accepted
  | sign moment layerId =>
    obtain ⟨receipt, accepted⟩ := map_fst_ok accepted
    exact written_sign accepted
  | signEndpoint moment layerId rekor =>
    obtain ⟨attempt, accepted⟩ := map_fst_ok accepted
    exact .endpoint (gate_passed (mutate_ok (rethrow_ok_iff.mp accepted)))
  | resolve moment layerId key decision note => exact written_resolve accepted

end LedgerProof
