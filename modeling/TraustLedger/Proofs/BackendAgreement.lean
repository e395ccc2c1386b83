import TraustLedger.Proofs.WrittenLayers
import TraustLedger.Proofs.ReferenceEnv
import TraustLedger.Library.Logs
import Mathlib.Data.List.Nodup

namespace LedgerProof

open Hashing Python Runs Sha256 LedgerModel

variable {env : Env} {H : HashFunction} {layer : Layer}

def onBackend (backend : Backend) (env : Env) : Env := { env with backend := backend }

/-- What the database asks of a write: the log it holds starts the new one, and every event has its own id. -/
def KeepsLog (layer mutated : Layer) : Prop := layer.events <+: mutated.events ∧ DistinctIds mutated.events

theorem KeepsLog.of_events {mutated : Layer} (distinct : DistinctIds layer.events)
    (same : mutated.events = layer.events) :
    KeepsLog layer mutated := by
  rw [KeepsLog, same]
  exact ⟨List.prefix_rfl, distinct⟩

theorem KeepsLog.congr {mutated finalized : Layer} (kept : KeepsLog layer mutated)
    (same : finalized.events = mutated.events) :
    KeepsLog layer finalized := by
  rw [KeepsLog, same]
  exact kept

theorem eventPayloads_prefix_iff {events more : List Dict} :
    eventPayloads events <+: eventPayloads more ↔ events <+: more :=
  Logs.map_prefix_map fun _ _ same => Json.obj.inj (dumps_injective same)

theorem mutate_file {α : Type} (layerId : String) (mutator : Layer → Outcome (Layer × α)) (layer : Layer) :
    mutate (onBackend .file env) layerId mutator layer = fileMutate env layerId mutator layer := rfl

theorem mutate_db {α : Type} (layerId : String) (mutator : Layer → Outcome (Layer × α)) (layer : Layer) :
    mutate (onBackend .db env) layerId mutator layer = dbMutate env layerId mutator layer := rfl

theorem mutate_agrees {α : Type} {layerId : String} {mutator : Layer → Outcome (Layer × α)}
    (shell : shellComplete layer = true)
    (keeps : ∀ mutated value, mutator layer = .ok (mutated, value) → KeepsLog layer mutated) :
    mutate (onBackend .file env) layerId mutator layer = mutate (onBackend .db env) layerId mutator layer := by
  rw [mutate_file, mutate_db, fileMutate, dbMutate]
  cases mutation : mutator layer with
  | error failure => simp [require, shell, bind, Except.bind]
  | ok result =>
    obtain ⟨mutated, value⟩ := result
    obtain ⟨grown, named, distinct⟩ := keeps mutated value mutation
    have offset := @appendOffset_ok layerId _ _ _ |>.mpr ⟨eventPayloads_prefix_iff.mpr grown, rfl⟩
    by_cases valid : env.contracts.validateLayer mutated = true
    · simp only [require, shell, valid, named, distinct, offset, bind, Except.bind, if_true]
    · simp [require, shell, valid, bind, Except.bind]

def Admits (env : Env) (layer mutated : Layer) : Prop :=
  env.contracts.validateLayer mutated = true ∧
    match env.backend with
    | .file => shellComplete layer = true
    | .db => KeepsLog layer mutated

theorem mutate_ok_iff {α : Type} {layerId : String} {mutator : Layer → Outcome (Layer × α)} {mutated : Layer}
    {value : α} : mutate env layerId mutator layer = .ok (mutated, value) ↔
      mutator layer = .ok (mutated, value) ∧ Admits env layer mutated := by
  unfold mutate Admits
  cases env.backend with
  | file =>
    simp only [fileMutate, bind_ok_iff, require_ok_iff, exists_const]
    constructor
    · rintro ⟨shell, ⟨_, _⟩, mutation, valid, result⟩
      cases result
      exact ⟨mutation, valid, shell⟩
    · rintro ⟨mutation, valid, shell⟩
      exact ⟨shell, (mutated, value), mutation, valid, rfl⟩
  | db =>
    simp only [dbMutate, bind_ok_iff, require_ok_iff, exists_const]
    constructor
    · rintro ⟨⟨_, _⟩, mutation, valid, named, _, offset, distinct, result⟩
      cases result
      exact ⟨mutation, valid, eventPayloads_prefix_iff.mp (appendOffset_ok.mp offset).1, named, distinct⟩
    · rintro ⟨mutation, valid, grown, named, distinct⟩
      exact ⟨(mutated, value), mutation, valid, named, _,
        appendOffset_ok.mpr ⟨eventPayloads_prefix_iff.mpr grown, rfl⟩, distinct, rfl⟩

theorem step_distinct {next : Layer} {call : Call} (db : env.backend = .db) (distinct : DistinctIds layer.events)
    (accepted : step env layer call = .ok next) : DistinctIds next.events := by
  rcases step_stores accepted with rfl | ⟨_, layerId, mutator, value, stored⟩
  · exact distinct
  · have admitted := (mutate_ok_iff.mp stored).2
    rw [Admits, db] at admitted
    exact admitted.2.2

theorem hexDigest_ne_empty (H : HashFunction) (data : Bytes) : hexDigest H data ≠ "" := by
  intro empty
  have width := H.digest_length data
  have chars : hexChars (H.digest data) = [] := by
    have listed := congrArg String.toList empty
    simpa [hexDigest, hex] using listed
  cases digest : H.digest data with
  | nil =>
    rw [digest] at width
    cases width
  | cons byte rest =>
    rw [digest] at chars
    cases chars

theorem canonicalId_ne_empty {event : Dict} {id : String} (computed : canonicalId H event = .ok id) : id ≠ "" := by
  unfold canonicalId at computed
  obtain ⟨source, -, computed⟩ := bind_ok_iff.mp computed
  obtain ⟨disposition, -, computed⟩ := bind_ok_iff.mp computed
  cases computed
  exact hexDigest_ne_empty H _

theorem DistinctIds.snoc {events : List Dict} (distinct : DistinctIds events) {event prepared : Dict} {id : String}
    (preparation : prepareEvent H event = .ok (prepared, id)) (fresh : holdsId events id = false) :
    DistinctIds (events ++ [prepared]) := by
  have named : prepared.get "event_id" = .str id := by
    rw [Dict.get, prepareEvent_lookup preparation (by decide)]
    rfl
  refine ⟨?_, ?_⟩
  · rw [List.all_append, distinct.named]
    simpa [named, isText] using canonicalId_ne_empty (prepareEvent_ok preparation).2.1
  · rw [List.map_append, List.nodup_append']
    refine ⟨distinct.distinct, List.nodup_singleton _, ?_⟩
    intro value held new
    obtain ⟨event, member, rfl⟩ := List.mem_map.mp held
    rw [List.map_singleton, List.mem_singleton, named] at new
    have absent := List.any_eq_false.mp fresh event member
    rw [new, Json.pyEq_self] at absent
    exact absent rfl

theorem kept_appendOne (distinct : DistinctIds layer.events) {event : Dict} {appended : Layer} {id : String}
    (accepted : appendOne H layer event = .ok (appended, id)) : KeepsLog layer appended := by
  obtain ⟨prepared, preparation, rfl⟩ := appendOne_ok accepted
  by_cases held : holdsId layer.events id = true
  · exact .of_events distinct (if_pos held)
  · have grown : KeepsLog layer { layer with events := layer.events ++ [prepared] } :=
      ⟨List.prefix_append _ _, distinct.snoc preparation (by simpa using held)⟩
    exact grown.congr (if_neg held)

theorem kept_appendRestatement (distinct : DistinctIds layer.events) {event : Dict} {target id : String} {after : Json}
    {changed : Layer} (accepted : appendRestatement H layer event target after = .ok (changed, id)) :
    KeepsLog layer changed := by
  unfold appendRestatement at accepted
  obtain ⟨⟨appended, canonical⟩, appending, accepted⟩ := bind_ok_iff.mp accepted
  replace accepted := gate_passed accepted
  cases accepted
  exact (kept_appendOne distinct appending).congr rfl

theorem kept_appendMany (distinct : DistinctIds layer.events) {events : List Dict} {appended : Layer}
    {ids : List String} (accepted : appendMany H layer events = .ok (appended, ids)) : KeepsLog layer appended := by
  induction events generalizing layer ids with
  | nil =>
    cases accepted
    exact .of_events distinct rfl
  | cons event rest ih =>
    rw [appendMany] at accepted
    obtain ⟨⟨prepared, id⟩, preparation, accepted⟩ := bind_ok_iff.mp accepted
    simp only at accepted
    split at accepted
    · exact ih distinct accepted
    · next fresh =>
      obtain ⟨⟨longer, more⟩, later, accepted⟩ := bind_ok_iff.mp accepted
      cases accepted
      have step := distinct.snoc preparation (by simpa using fresh)
      obtain ⟨grown, apart⟩ := ih step later
      exact ⟨(List.prefix_append _ _).trans grown, apart⟩

theorem attachIdentity_stamped {index : List (Json × Json)} {event : Dict}
    (stamped : (attachIdentity index event).2 = true) : (attachIdentity index event).1 ≠ event := by
  unfold attachIdentity at stamped ⊢
  split
  · next held => simp [held] at stamped
  · next absent =>
    simp only [absent] at stamped ⊢
    split_ifs at stamped ⊢ with found
    intro same
    have print := congrArg (fun event : Dict => (event.get "fingerprint").truthy) same
    simp [found, absent] at print

section Doors

variable (shell : shellComplete layer = true) (distinct : DistinctIds layer.events) (moment : Moment)

include shell distinct

theorem applyRestatement_agrees (layerId rationale recordedAt : String) (block : Dict) (actor : LayerActor) :
    applyRestatement (onBackend .file env) moment layerId block rationale actor recordedAt layer =
      applyRestatement (onBackend .db env) moment layerId block rationale actor recordedAt layer := by
  unfold applyRestatement
  refine bind_congr (x := restatementEvent env moment block rationale actor recordedAt) fun gated => ?_
  apply mutate_agrees shell
  intro mutated value accepted
  replace accepted := gate_passed accepted
  obtain ⟨⟨changed, id⟩, appending, accepted⟩ := bind_ok_iff.mp accepted
  obtain ⟨⟨finalized, root⟩, finalizing, accepted⟩ := bind_ok_iff.mp accepted
  cases accepted
  exact (kept_appendRestatement distinct appending).congr (finalizeLayer_ok finalizing).1

theorem patchMetadata_agrees (layerId : String) (updates : Dict) :
    patchMetadata (onBackend .file env) moment layerId updates layer =
      patchMetadata (onBackend .db env) moment layerId updates layer := by
  unfold patchMetadata
  refine congrArg asLedgerError (mutate_agrees shell ?_)
  intro mutated value accepted
  replace accepted := gate_passed accepted
  obtain ⟨⟨finalized, root⟩, finalizing, accepted⟩ := bind_ok_iff.mp accepted
  cases accepted
  exact .of_events distinct (finalizeLayer_ok finalizing).1

theorem submitEvent_agrees (rawKind : String) (rawEvent : Dict) (actor : LayerActor) :
    submitEvent (onBackend .file env) moment rawKind rawEvent actor layer =
      submitEvent (onBackend .db env) moment rawKind rawEvent actor layer := by
  unfold submitEvent
  refine congrArg _ (bind_congr fun _ => bind_congr fun kind => ?_)
  refine bind_congr (x := submittedEvent env moment kind rawEvent actor) fun submitted => ?_
  apply mutate_agrees shell
  intro mutated value accepted
  replace accepted := ite_bind_ok (gate_passed accepted)
  obtain ⟨⟨appended, id⟩, appending, accepted⟩ := bind_ok_iff.mp accepted
  obtain ⟨⟨finalized, root⟩, finalizing, accepted⟩ := bind_ok_iff.mp accepted
  cases accepted
  exact (kept_appendOne distinct appending).congr (finalizeLayer_ok finalizing).1

theorem queueEvents_agrees (layerId : String) (items : List Json) :
    mutate (onBackend .file env) layerId (fun layer => queueEvents layer items) layer =
      mutate (onBackend .db env) layerId (fun layer => queueEvents layer items) layer := by
  apply mutate_agrees shell
  intro mutated value accepted
  rw [queueEvents_layer accepted]
  exact .of_events distinct rfl

theorem submitBatch_agrees (layerId : String) (body : BatchSubmitRequest) (actor : LayerActor) :
    submitBatch (onBackend .file env) moment layerId body actor layer =
      submitBatch (onBackend .db env) moment layerId body actor layer := by
  unfold submitBatch
  refine congrArg _ (bind_congr fun _ => bind_congr fun _ => ?_)
  have atomic (events : List Dict) (items : List Json) :
      mutate (onBackend .file env) layerId (submitAtomic env moment events items) layer =
        mutate (onBackend .db env) layerId (submitAtomic env moment events items) layer := by
    apply mutate_agrees shell
    intro mutated value accepted
    obtain ⟨appended, ids, root, appending, finalizing⟩ := submitAtomic_layer accepted
    exact (kept_appendMany distinct appending).congr (finalizeLayer_ok finalizing).1
  have source (backend : Backend) :
      stampSourceOnEvent (onBackend backend env) actor = stampSourceOnEvent env actor := rfl
  have contracts (backend : Backend) : (onBackend backend env).contracts = env.contracts := rfl
  have submit (backend : Backend) : submitAtomic (onBackend backend env) = submitAtomic env := rfl
  simp only [source, contracts, submit]
  split
  · rfl
  · exact queueEvents_agrees shell distinct layerId _
  · exact atomic _ _

theorem cmdSubmitEvents_agrees (layerId : String) (events : List Json) (actor : LayerActor) :
    cmdSubmitEvents (onBackend .file env) layerId events actor layer =
      cmdSubmitEvents (onBackend .db env) layerId events actor layer := by
  unfold cmdSubmitEvents
  refine if_congr Iff.rfl rfl ?_
  apply mutate_agrees shell
  intro mutated value accepted
  obtain ⟨⟨appended, ids⟩, appending, accepted⟩ := bind_ok_iff.mp accepted
  cases accepted
  exact kept_appendMany distinct appending

theorem cmdSubmitQueue_agrees (layerId sourceRef : String) (queue : List Json) (actor : LayerActor) :
    cmdSubmitQueue (onBackend .file env) layerId sourceRef queue actor layer =
      cmdSubmitQueue (onBackend .db env) layerId sourceRef queue actor layer := by
  unfold cmdSubmitQueue
  exact if_congr Iff.rfl rfl (queueEvents_agrees shell distinct layerId _)

theorem sign_agrees (layerId : String) :
    sign (onBackend .file env) moment layerId layer = sign (onBackend .db env) moment layerId layer := by
  unfold sign
  refine congrArg asLedgerError (mutate_agrees shell ?_)
  intro mutated value accepted
  obtain ⟨⟨finalized, root⟩, finalizing, accepted⟩ := bind_ok_iff.mp accepted
  cases accepted
  exact .of_events distinct (finalizeLayer_ok finalizing).1

theorem signLayerEndpoint_agrees (layerId : String) (rekor : Bool) :
    signLayerEndpoint (onBackend .file env) moment layerId rekor layer =
      signLayerEndpoint (onBackend .db env) moment layerId rekor layer := by
  unfold signLayerEndpoint
  refine congrArg _ (mutate_agrees shell ?_)
  intro mutated value accepted
  exact .of_events distinct (signLayer_ok (gate_passed accepted)).1

theorem resolve_agrees (layerId : String) (key : Option Json) (decision note : String) :
    resolve (onBackend .file env) moment layerId key decision note layer =
      resolve (onBackend .db env) moment layerId key decision note layer := by
  unfold resolve
  refine bind_congr fun _ => bind_congr fun _ => bind_congr fun itemKey => ?_
  refine congrArg (· >>= _) (congrArg _ (mutate_agrees shell ?_))
  intro mutated value accepted
  obtain ⟨answer, resolving, accepted⟩ := bind_ok_iff.mp accepted
  cases answer with
  | none =>
    cases accepted
    exact .of_events distinct rfl
  | some closed =>
    cases accepted
    exact .of_events distinct (resolveReviewItem_ok resolving).2

end Doors

theorem stampEventIdentities_agrees (shell : shellComplete layer = true) (distinct : DistinctIds layer.events)
    (moment : Moment) (layerId : String) {fingerprints : List (String × String)}
    (none : ∀ event ∈ layer.events, (attachIdentity (fingerprintIndex fingerprints) event).2 = false) :
    stampEventIdentities (onBackend .file env) moment layerId fingerprints layer =
      stampEventIdentities (onBackend .db env) moment layerId fingerprints layer := by
  unfold stampEventIdentities
  refine congrArg asLedgerError (mutate_agrees shell ?_)
  intro mutated value accepted
  obtain ⟨⟨finalized, root⟩, finalizing, accepted⟩ := bind_ok_iff.mp accepted
  cases accepted
  refine .of_events distinct ((finalizeLayer_ok finalizing).1.trans ?_)
  rw [List.map_map]
  refine (List.map_congr_left fun event member => ?_).trans (List.map_id _)
  exact attachIdentity_unstamped (none event member)

/-- A backfill that gives a fingerprint to an event of the log. -/
def Restamps (layer : Layer) : Call → Prop
  | .stampIdentities _ _ fingerprints =>
    ∃ event ∈ layer.events, (attachIdentity (fingerprintIndex fingerprints) event).2 = true
  | _ => False

theorem step_agrees (shell : shellComplete layer = true) (distinct : DistinctIds layer.events) {call : Call}
    (kept : ¬ Restamps layer call) : step (onBackend .file env) layer call = step (onBackend .db env) layer call := by
  cases call with
  | restate moment layerId block rationale actor recordedAt =>
    rw [step, step, applyRestatement_agrees shell distinct]
  | patch moment layerId updates => rw [step, step, patchMetadata_agrees shell distinct]
  | submitEvent moment kind event actor => rw [step, step, submitEvent_agrees shell distinct]
  | submitBatch moment layerId body actor => rw [step, step, submitBatch_agrees shell distinct]
  | cmdSubmitEvents layerId events actor => rw [step, step, cmdSubmitEvents_agrees shell distinct]
  | cmdSubmitQueue layerId sourceRef queue actor => rw [step, step, cmdSubmitQueue_agrees shell distinct]
  | sign moment layerId => rw [step, step, sign_agrees shell distinct]
  | signEndpoint moment layerId rekor => rw [step, step, signLayerEndpoint_agrees shell distinct]
  | resolve moment layerId key decision note => rw [step, step, resolve_agrees shell distinct]
  | stampIdentities moment layerId fingerprints =>
    rw [step, step, stampEventIdentities_agrees shell distinct]
    intro event member
    by_contra stamped
    exact kept ⟨event, member, by simpa using stamped⟩

def stampedLayer (fingerprints : List (String × String)) (layer : Layer) : Layer :=
  { layer with events := layer.events.map fun event => (attachIdentity (fingerprintIndex fingerprints) event).1 }

def Storable (env : Env) (layer : Layer) : Call → Prop
  | .stampIdentities moment layerId fingerprints =>
    ∃ finalized root, finalizeLayer env moment layerId (stampedLayer fingerprints layer) = .ok (finalized, root) ∧
      env.contracts.validateLayer finalized = true
  | _ => False

theorem storable_onBackend {backend : Backend} {call : Call} :
    Storable (onBackend backend env) layer call ↔ Storable env layer call := Iff.rfl

theorem stampIdentities_storable {moment : Moment} {layerId : String} {fingerprints : List (String × String)}
    {next : Layer} (accepted : step env layer (.stampIdentities moment layerId fingerprints) = .ok next) :
    (∃ root, finalizeLayer env moment layerId (stampedLayer fingerprints layer) = .ok (next, root)) ∧
      env.contracts.validateLayer next = true := by
  obtain ⟨receipt, accepted⟩ := map_fst_ok accepted
  have mutation := rethrow_ok_iff.mp accepted
  refine ⟨?_, mutate_valid mutation⟩
  obtain ⟨⟨finalized, root⟩, finalizing, mutated⟩ := bind_ok_iff.mp (mutate_ok mutation)
  cases mutated
  rw [List.map_map] at finalizing
  exact ⟨root, finalizing⟩

theorem step_storable {call : Call} {next : Layer} (restamps : Restamps layer call)
    (accepted : step env layer call = .ok next) : Storable env layer call := by
  cases call with
  | stampIdentities moment layerId fingerprints =>
    obtain ⟨⟨root, finalizing⟩, valid⟩ := stampIdentities_storable accepted
    exact ⟨next, root, finalizing, valid⟩
  | _ => exact restamps.elim

theorem file_backfills (shell : shellComplete layer = true) {call : Call} (storable : Storable env layer call) :
    ∃ next, step (onBackend .file env) layer call = .ok next := by
  cases call with
  | stampIdentities moment layerId fingerprints =>
    obtain ⟨finalized, root, finalizing, valid⟩ := storable
    have stored : ∃ receipt, stampEventIdentities (onBackend .file env) moment layerId fingerprints layer =
        .ok (finalized, receipt) := by
      unfold stampEventIdentities
      rw [mutate_file]
      refine ⟨_, rethrow_ok_iff.mpr (fileMutate_ok.mpr ⟨shell, bind_ok_iff.mpr ⟨(finalized, root), ?_, rfl⟩, valid⟩)⟩
      rw [List.map_map]
      exact finalizing
    obtain ⟨receipt, stored⟩ := stored
    refine ⟨finalized, ?_⟩
    rw [step, stored]
    rfl
  | _ => exact storable.elim

theorem db_refuses {call : Call} (restamps : Restamps layer call) (next : Layer) :
    step (onBackend .db env) layer call ≠ .ok next := by
  cases call with
  | stampIdentities moment layerId fingerprints =>
    obtain ⟨event, member, stamped⟩ := restamps
    intro accepted
    obtain ⟨⟨root, finalizing⟩, -⟩ := stampIdentities_storable accepted
    obtain ⟨receipt, accepted⟩ := map_fst_ok accepted
    have stored := rethrow_ok_iff.mp accepted
    rw [mutate_db] at stored
    obtain ⟨-, -, -, grown⟩ := dbMutate_ok.mp stored
    rw [eventPayloads_prefix_iff, (finalizeLayer_ok finalizing).1] at grown
    have same := grown.eq_of_length (by simp [stampedLayer])
    obtain ⟨index, bound, rfl⟩ := List.mem_iff_getElem.mp member
    have changed := List.getElem_of_eq same bound
    simp only [stampedLayer, List.getElem_map] at changed
    exact attachIdentity_stamped stamped changed.symm
  | _ => exact restamps.elim

def Agree (file db : Outcome Layer) : Prop :=
  (∃ stored, file = .ok stored ∧ db = .ok stored) ∨ ∃ first second, file = .error first ∧ db = .error second

theorem Agree.of_eq {file db : Outcome Layer} (same : file = db) : Agree file db := by
  subst same
  cases file with
  | ok stored => exact .inl ⟨stored, rfl, rfl⟩
  | error failure => exact .inr ⟨failure, failure, rfl, rfl⟩

/-- With a schema that asks for the whole shell, the backends differ exactly on the backfills that can be stored. -/
theorem backends_agree_iff (complete : ∀ layer, env.contracts.validateLayer layer = true → shellComplete layer = true)
    (valid : env.contracts.validateLayer layer = true) (distinct : DistinctIds layer.events) (call : Call) :
    Agree (step (onBackend .file env) layer call) (step (onBackend .db env) layer call) ↔
      ¬ (Restamps layer call ∧ Storable env layer call) := by
  have shell := complete layer valid
  constructor
  · rintro agree ⟨restamps, storable⟩
    obtain ⟨next, file⟩ := @file_backfills env layer shell call storable
    rcases agree with ⟨stored, -, db⟩ | ⟨failure, _, refused, -⟩
    · exact db_refuses restamps stored db
    · rw [file] at refused
      cases refused
  · intro harmless
    by_cases restamps : Restamps layer call
    · -- neither backend can store what the finalizer or the schema refuses
      have refused (backend : Backend) : ∃ failure, step (onBackend backend env) layer call = .error failure := by
        cases outcome : step (onBackend backend env) layer call with
        | error failure => exact ⟨failure, rfl⟩
        | ok next => exact absurd ⟨restamps, storable_onBackend.mp (step_storable restamps outcome)⟩ harmless
      obtain ⟨first, file⟩ := refused .file
      obtain ⟨second, db⟩ := refused .db
      exact .inr ⟨first, second, file, db⟩
    · exact .of_eq (step_agrees shell distinct restamps)

def loggedLayer : Layer :=
  { shellOf [] with events := [[("event_id", .str "e-1"), ("finding_ref", .str "FIND-1")]] }

theorem referenceEnv_complete (layer : Layer) (valid : referenceEnv.contracts.validateLayer layer = true) :
    shellComplete layer = true := by
  have accepted : acceptsLayer layer = true := valid
  simp only [acceptsLayer, Bool.and_eq_true] at accepted
  exact accepted.1.1

theorem loggedLayer_distinct : DistinctIds loggedLayer.events := ⟨by decide, by decide⟩

theorem backends_agree_iff_patch :
    (∀ layer, referenceEnv.contracts.validateLayer layer = true → shellComplete layer = true) ∧
      DistinctIds loggedLayer.events ∧
      Agree (step (onBackend .file referenceEnv) loggedLayer (patchClaims [("FIND-1", .str "a")]))
        (step (onBackend .db referenceEnv) loggedLayer (patchClaims [("FIND-1", .str "a")])) :=
  ⟨referenceEnv_complete, loggedLayer_distinct,
    (backends_agree_iff referenceEnv_complete (by decide +kernel) loggedLayer_distinct _).mpr fun both => both.1⟩

/-- The file takes the fingerprint of an event it holds; the database refuses the same call. -/
theorem stamp_disagrees : referenceEnv.contracts.validateLayer loggedLayer = true ∧ DistinctIds loggedLayer.events ∧
    ¬ Agree (step (onBackend .file referenceEnv) loggedLayer (.stampIdentities unsigned "acme" [("FIND-1", "f1")]))
      (step (onBackend .db referenceEnv) loggedLayer (.stampIdentities unsigned "acme" [("FIND-1", "f1")])) := by
  refine ⟨by decide +kernel, loggedLayer_distinct, ?_⟩
  have restamps : Restamps loggedLayer (.stampIdentities unsigned "acme" [("FIND-1", "f1")]) :=
    ⟨_, List.mem_singleton_self _, by decide +kernel⟩
  have stored : (step (onBackend .file referenceEnv) loggedLayer
      (.stampIdentities unsigned "acme" [("FIND-1", "f1")])).isOk = true := by decide +kernel
  rintro (⟨next, -, db⟩ | ⟨failure, _, file, -⟩)
  · exact db_refuses restamps next db
  · rw [file] at stored
    cases stored

end LedgerProof
