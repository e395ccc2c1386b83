import TraustLedger.Proofs.AppendOnly
import TraustLedger.Proofs.ReferenceEnv

namespace LedgerProof

open Hashing Python Runs Logs Sha256 LedgerModel

variable {env : Env} {H : HashFunction}

/-- The Merkle fields of the metadata are the ones a stamp of this log leaves. -/
structure Stamped (H : HashFunction) (layer : Layer) : Prop where
  epoch : (layer.metadata.get "merkle_epoch").pyInt = some (epochOf layer : Int)
  empty : layer.events.length = 0 → epochOf layer = 0
  inside : layer.events.length ≠ 0 → epochOf layer < layer.events.length
  root : layer.metadata.get "merkle_root" = .str (hex (computeRoot H ((postEpoch layer).map canonicalEventBytes)))
  size : layer.metadata.get "merkle_size" = .int (postEpoch layer).length
  format : layer.metadata.get "leaf_format" = .int leafFormatCurrent
  checkpoint : layer.metadata.get "pre_merkle_checkpoint" =
    if 0 < epochOf layer then .str (computePreEpochCheckpoint H (preEpoch layer)) else .null

theorem getD_eq_get {metadata : Dict} {key : String} {default : Json} (held : metadata.get key ≠ .null) :
    metadata.getD key default = metadata.get key := by
  unfold Dict.get Dict.getD at *
  cases found : metadata.lookup key with
  | none => simp [found] at held
  | some value => rfl

theorem get_ne_null_of_pyInt {value : Json} {n : Int} (converted : value.pyInt = some n) : value ≠ .null := by
  rintro rfl
  cases converted

theorem Stamped.rawEpoch {layer : Layer} (stamped : Stamped H layer) :
    rawEpoch layer = layer.metadata.get "merkle_epoch" :=
  getD_eq_get (get_ne_null_of_pyInt stamped.epoch)

theorem stamped_of_stamp {layer stamped : Layer} {dropped : Bool}
    (accepted : stampMerkleMetadata H layer = .ok (stamped, dropped)) : Stamped H stamped := by
  obtain ⟨converted, empty, inside, -, -⟩ := stampMerkleMetadata_ok accepted
  have epochs := epochOf_stamped accepted
  have epochHeld : stamped.metadata.get "merkle_epoch" = rawEpoch layer := by
    rw [get_stamped accepted (by decide)]
    unfold stampedMetadata withRoot
    simp only [Dict.get_set, String.reduceEq, if_false]
    rw [get_withCheckpoint _ _ _ (by decide), get_setDefault, if_pos rfl, rawEpoch]
  have checkpointHeld : stamped.metadata.get "pre_merkle_checkpoint" =
      if 0 < epochOf layer then .str (computePreEpochCheckpoint H (preEpoch layer)) else .null := by
    rw [get_stamped accepted (by decide)]
    unfold stampedMetadata withRoot withCheckpoint
    by_cases positive : 0 < epochOf layer <;> simp [positive]
  constructor
  · rw [epochHeld, epochs, converted]
  · rw [events_stamped accepted, epochs]
    exact empty
  · rw [events_stamped accepted, epochs]
    exact inside
  · rw [root_stamped accepted, postEpoch_stamped accepted]
  · rw [size_stamped accepted, postEpoch_stamped accepted]
  · rw [get_stamped accepted (by decide)]
    simp [stampedMetadata, withRoot]
  · rw [checkpointHeld, epochs, preEpoch_stamped accepted]

theorem Stamped.congr {layer next : Layer} (stamped : Stamped H layer) (events : next.events = layer.events)
    (metadata : ∀ key, key ∉ signatureKeys → next.metadata.get key = layer.metadata.get key) : Stamped H next := by
  have epochHeld := metadata "merkle_epoch" (by decide)
  have raw : LedgerProof.rawEpoch next = LedgerProof.rawEpoch layer := by
    rw [stamped.rawEpoch, ← epochHeld]
    exact getD_eq_get (epochHeld ▸ get_ne_null_of_pyInt stamped.epoch)
  have epochs := epochOf_congr raw
  have pre := preEpoch_congr raw events
  have post := postEpoch_congr raw events
  constructor
  · rw [epochHeld, epochs, stamped.epoch]
  · rw [events, epochs]
    exact stamped.empty
  · rw [events, epochs]
    exact stamped.inside
  · rw [metadata _ (by decide), post, stamped.root]
  · rw [metadata _ (by decide), post, stamped.size]
  · rw [metadata _ (by decide), stamped.format]
  · rw [metadata _ (by decide), epochs, pre, stamped.checkpoint]

theorem Stamped.verifies {layer : Layer} (stamped : Stamped H layer) :
    verifyMerkleIntegrity H layer = verifyRestatedMetadata layer := by
  have empty := stamped.empty
  have inside := stamped.inside
  have raw : layer.metadata.getD "merkle_epoch" (.int 0) = layer.metadata.get "merkle_epoch" := stamped.rawEpoch
  have format : layer.metadata.getD "leaf_format" (.int 1) = .int leafFormatCurrent := by
    rw [getD_eq_get (by simp [stamped.format]), stamped.format]
  have epochConverted : toInt (layer.metadata.get "merkle_epoch") = .ok (epochOf layer : Int) := by
    simp [toInt, stamped.epoch]
  have checkpoints : checkpointFindings H (layer.metadata.get "pre_merkle_checkpoint") (epochOf layer)
      (layer.events.take (epochOf layer)) = [] := by
    rw [stamped.checkpoint]
    unfold checkpointFindings preEpoch
    by_cases positive : 0 < epochOf layer <;> simp [positive]
  unfold verifyMerkleIntegrity
  rw [if_neg (by simp [stamped.root]), raw, epochConverted, format]
  simp only [bind, Except.bind]
  rw [if_neg (by omega), if_neg (by omega), if_neg (by omega)]
  simp only [Json.pyInt, Option.getD_some, leafFormatCurrent, ne_eq, not_true_eq_false, and_false, if_false]
  unfold recomputedFindings
  simp only [Int.toNat_natCast]
  rw [← leafFormatCurrent, computeMerkleRoot_current, checkpoints]
  simp only [bind, Except.bind]
  cases verifyRestatedMetadata layer with
  | error failure => rfl
  | ok restated =>
    simp [leafFormatCurrent, rootFindings, sizeFindings, stamped.root, stamped.size, postEpoch, pure, Except.pure]

theorem stamped_of_finalize {moment : Moment} {layerId root : String} {draft next : Layer}
    (accepted : finalizeLayer env moment layerId draft = .ok (next, root)) : Stamped env.hash next := by
  unfold finalizeLayer at accepted
  obtain ⟨⟨stamped, dropped⟩, stamp, accepted⟩ := bind_ok_iff.mp accepted
  replace accepted := gate_passed accepted
  cases accepted
  obtain ⟨events, metadata⟩ := signIfConfigured_frame env.signers _ stamped
  exact (stamped_of_stamp stamp).congr events metadata

theorem stamped_of_signLayer {moment : Moment} {signers : Signers} {credentials : Option SigningConfig}
    {layer next : Layer} {attempt : SignAttempt}
    (accepted : signLayer env moment signers credentials layer = .ok (next, attempt)) : Stamped env.hash next := by
  unfold signLayer at accepted
  obtain ⟨⟨stamped, dropped⟩, stamp, accepted⟩ := bind_ok_iff.mp accepted
  replace accepted := gate_passed accepted
  cases accepted
  obtain ⟨events, metadata⟩ := signIfConfigured_frame signers _ stamped
  exact (stamped_of_stamp stamp).congr events metadata

/-- Some event of an accepted `cmd_submit` has an id the log does not hold. -/
def BringsNew (env : Env) (layer : Layer) : Call → Prop
  | .cmdSubmitEvents _ events actor => ∃ event ∈ cmdEvents env actor events, ∃ id,
      canonicalId env.hash event = .ok id ∧ holdsId layer.events id = false
  | _ => False

theorem appendMany_known {layer appended : Layer} {events : List Dict} {ids : List String}
    (accepted : appendMany H layer events = .ok (appended, ids))
    (known : ∀ event ∈ events, ∀ id, canonicalId H event = .ok id → holdsId layer.events id = true) :
    appended = layer := by
  induction events generalizing ids with
  | nil =>
    cases accepted
    rfl
  | cons event rest ih =>
    rw [appendMany] at accepted
    obtain ⟨⟨prepared, id⟩, preparation, accepted⟩ := bind_ok_iff.mp accepted
    obtain ⟨-, computed, -⟩ := prepareEvent_ok preparation
    have held := known event List.mem_cons_self id computed
    simp only [held, if_true] at accepted
    exact ih accepted fun e member => known e (List.mem_cons_of_mem _ member)

theorem cmdSubmit_known {layer next : Layer} {layerId : String} {events : List Json} {actor : LayerActor}
    {ids : List String} (known : ¬ BringsNew env layer (.cmdSubmitEvents layerId events actor))
    (appending : appendMany env.hash layer (cmdEvents env actor events) = .ok (next, ids)) : next = layer := by
  apply appendMany_known appending
  intro event member id computed
  by_contra fresh
  exact known ⟨event, member, id, computed, by simpa using fresh⟩

def ReadableEvent (event : Dict) : Prop := ∃ answer, isRestatement event = .ok answer

theorem Prepared.readable {event : Dict} (prepared : Prepared H event) : ReadableEvent event := by
  obtain ⟨body, id, preparation⟩ := prepared
  obtain ⟨⟨answer, read⟩, -, same⟩ := prepareEvent_ok preparation
  exact ⟨answer, (isRestatement_congr same).trans read⟩

theorem Identified.readable {old new : Dict} (identified : Identified old new) (readable : ReadableEvent old) :
    ReadableEvent new := by
  obtain ⟨answer, read⟩ := readable
  exact ⟨answer, (isRestatement_congr identified.sameRestatement).trans read⟩

theorem step_readable {layer next : Layer} {call : Call} (accepted : step env layer call = .ok next)
    (readable : Readable layer.events) : Readable next.events :=
  (step_grows accepted).forall (fun _ prepared => prepared.readable) (fun _ _ same => same.readable) readable

/-- The stamp every write of a log that holds an event leaves behind, with a log the verifier can read. -/
structure Finalized (H : HashFunction) (layer : Layer) : Prop where
  readable : Readable layer.events
  stamped : layer.events ≠ [] → Stamped H layer

theorem Finalized.step {layer next : Layer} {call : Call} (finalized : Finalized env.hash layer)
    (known : ¬ BringsNew env layer call) (accepted : step env layer call = .ok next) :
    Finalized env.hash next := by
  refine ⟨step_readable accepted finalized.readable, fun held => ?_⟩
  cases step_written accepted with
  | finalized drafted finalizing => exact stamped_of_finalize finalizing
  | appended appending =>
    cases cmdSubmit_known known appending
    exact finalized.stamped held
  | endpoint signing => exact stamped_of_signLayer signing
  | queued metadata events =>
    rw [events] at held
    exact (finalized.stamped held).congr events fun key _ => by rw [metadata]

def MerkleVerifies (H : HashFunction) (layer : Layer) : Prop :=
  ∃ restated, verifyRestatedMetadata layer = .ok restated ∧ verifyMerkleIntegrity H layer = .ok restated

theorem Finalized.verifies {layer : Layer} (finalized : Finalized H layer) (held : layer.events ≠ []) :
    MerkleVerifies H layer := by
  have read := verifyRestatedMetadata_readable finalized.readable
  exact ⟨_, read, (finalized.stamped held).verifies.trans read⟩

theorem written_layers_verify (env : Env) (layerId : String) (shell start : Layer) (calls : List Call)
    (initialized : initializeLayer env layerId none shell = .ok start)
    (known : Along (step env) (fun layer call => ¬ BringsNew env layer call) start calls)
    (held : (run (step env) start calls).events ≠ []) :
    MerkleVerifies env.hash (run (step env) start calls) := by
  obtain ⟨empty, -⟩ := initializeLayer_ok initialized
  have initial : Finalized env.hash start := by
    refine ⟨fun event member => ?_, fun held => absurd empty held⟩
    rw [empty] at member
    cases member
  have final : Finalized env.hash (run (step env) start calls) :=
    run_invariant (fun layer call next finalized known accepted => finalized.step known accepted) initial known
  exact final.verifies held

def scanEvent : Dict :=
  Dict.ofList [("finding_ref", .str "FIND-1"), ("recorded_at", .str sampleInstant),
    ("occurred_at", .str sampleInstant), ("rationale", .str "reproduced by the validation run"),
    ("source", .obj (Dict.ofList [("type", .str "validation_report"), ("ref", .str "validation-1.json")])),
    ("disposition", .obj [("validity", .str "confirmed")])]

def submitScan : Call := .submitBatch unsigned "acme" ⟨"validation-1.json", sampleInstant, [scanEvent], []⟩ scannerAccount

theorem written_layers_verify_scan : (run (step referenceEnv) oneClaim [submitScan, .sign unsigned "acme"]).events ≠ [] ∧
    MerkleVerifies sha256 (run (step referenceEnv) oneClaim [submitScan, .sign unsigned "acme"]) := by
  have held : (run (step referenceEnv) oneClaim [submitScan, .sign unsigned "acme"]).events ≠ [] := by decide +kernel
  refine ⟨held, written_layers_verify referenceEnv "acme" oneClaim oneClaim _ rfl ?_ held⟩
  exact ⟨fun _ => not_false, fun _ => not_false, trivial⟩

/-- `cmd_submit` stores the event and no root over it. -/
theorem cmdSubmit_unstamped : initializeLayer referenceEnv "acme" none oneClaim = .ok oneClaim ∧
    (run (step referenceEnv) oneClaim [.cmdSubmitEvents "acme" [.obj scanEvent] scannerAccount]).events ≠ [] ∧
    ¬ MerkleVerifies sha256
      (run (step referenceEnv) oneClaim [.cmdSubmitEvents "acme" [.obj scanEvent] scannerAccount]) := by
  refine ⟨rfl, by decide +kernel, ?_⟩
  rintro ⟨restated, read, reported⟩
  have clean : verifyRestatedMetadata
      (run (step referenceEnv) oneClaim [.cmdSubmitEvents "acme" [.obj scanEvent] scannerAccount]) = .ok [] := by
    decide +kernel
  have absent : verifyMerkleIntegrity sha256
      (run (step referenceEnv) oneClaim [.cmdSubmitEvents "acme" [.obj scanEvent] scannerAccount]) =
        .ok [rootAbsent] := by
    decide +kernel
  rw [clean] at read
  cases read
  rw [absent] at reported
  cases reported

end LedgerProof
