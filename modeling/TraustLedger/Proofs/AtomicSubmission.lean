import TraustLedger.Proofs.BackendAgreement
import TraustLedger.Proofs.FinalizedLayers
import TraustLedger.Proofs.FileConcurrency

namespace LedgerProof

open Hashing Python Runs Sha256 LedgerModel

variable {env : Env} {H : HashFunction} {layer : Layer} {layerId : String}

theorem reviewItemKey_setDefault (item : Dict) (status : Json) :
    reviewItemKey (item.setDefault "status" status) = reviewItemKey item := by
  simp [reviewItemKey, get_setDefault]

theorem sameKey_refl (key : List Json) : sameKey key key = true := Json.pyEq_self _

def KeyQueued (queue : List Json) (item : Dict) : Prop :=
  ∃ held, .obj held ∈ queue ∧ sameKey (reviewItemKey held) (reviewItemKey item) = true

theorem KeyQueued.mono {queue longer : List Json} (grown : queue <+: longer) {item : Dict} (queued : KeyQueued queue item) :
    KeyQueued longer item := by
  rcases queued with ⟨held, member, same⟩
  exact ⟨held, grown.subset member, same⟩

theorem queueItems_step (queue : List Json) (item : Dict) (items : List Json) :
    ∃ longer, queueItems queue (.obj item :: items) = queueItems longer items ∧ queue <+: longer ∧
      KeyQueued longer item := by
  have key := reviewItemKey_setDefault item (.str "pending")
  rw [queueItems]
  split
  · next known =>
    refine ⟨queue, rfl, List.prefix_rfl, ?_⟩
    rcases List.any_eq_true.mp known with ⟨entry, member, same⟩
    cases entry with
    | obj held => exact ⟨held, member, key ▸ same⟩
    | _ => cases same
  · refine ⟨_, rfl, List.prefix_append _ _, _, List.mem_append_right _ (List.mem_singleton_self _), ?_⟩
    rw [key]
    exact sameKey_refl _

theorem queueItems_grows (queue items : List Json) :
    queue <+: queueItems queue items ∧ ∀ item, .obj item ∈ items → KeyQueued (queueItems queue items) item := by
  induction items generalizing queue with
  | nil => exact ⟨List.prefix_rfl, by simp⟩
  | cons entry items ih =>
    cases entry with
    | obj item =>
      rcases queueItems_step queue item items with ⟨longer, step, grown, queued⟩
      rcases ih longer with ⟨more, later⟩
      rw [step]
      refine ⟨grown.trans more, fun other member => ?_⟩
      rcases List.mem_cons.mp member with same | member
      · cases same
        exact queued.mono more
      · exact later other member
    | _ =>
      rcases ih queue with ⟨more, later⟩
      exact ⟨more, fun other member => later other (by simpa using member)⟩

/-- Nothing of the layer is lost, every event offered has its id in the log, and every item its key in the queue. -/
structure AllStored (H : HashFunction) (layer : Layer) (events : List Dict) (items : List Json) (stored : Layer) :
    Prop where
  log : layer.events <+: stored.events
  events : ∀ event ∈ events, ∃ id, canonicalId H event = .ok id ∧ holdsId stored.events id = true
  queue : layer.needsReview <+: stored.needsReview
  items : ∀ item, .obj item ∈ items → KeyQueued stored.needsReview item

/-- Reported as accepted and stored whole, or reported as failed and not stored at all. -/
def Lands (H : HashFunction) (layer : Layer) (events : List Dict) (items : List Json) {α : Type} :
    Layer × Outcome α → Prop
  | (stored, .ok _) => AllStored H layer events items stored
  | (stored, .error _) => stored = layer

theorem signIfConfigured_review (signers : Signers) (config : SigningConfig) (layer : Layer) :
    (signIfConfigured H signers config layer).1.needsReview = layer.needsReview := by
  rcases @signIfConfigured_layer H signers config layer with unsigned | ⟨signature, method, format, signed⟩
  · rw [unsigned]
  · rw [signed]

theorem review_stamped {stamped : Layer} {dropped : Bool}
    (accepted : stampMerkleMetadata H layer = .ok (stamped, dropped)) : stamped.needsReview = layer.needsReview := by
  rcases stampMerkleMetadata_ok accepted with ⟨-, -, -, rfl, -⟩
  rfl

theorem finalizeLayer_review {moment : Moment} {root : String} {finalized : Layer}
    (accepted : finalizeLayer env moment layerId layer = .ok (finalized, root)) :
    finalized.needsReview = layer.needsReview := by
  unfold finalizeLayer at accepted
  rcases bind_ok_iff.mp accepted with ⟨⟨stamped, dropped⟩, stamp, accepted⟩
  replace accepted := gate_passed accepted
  cases accepted
  exact (signIfConfigured_review _ _ stamped).trans (review_stamped stamp)

theorem allStored_of_append {events : List Dict} {items : List Json} {appended stored : Layer} {ids : List String}
    (appending : appendMany H layer events = .ok (appended, ids)) (log : stored.events = appended.events)
    (queue : stored.needsReview = queueItems layer.needsReview items) : AllStored H layer events items stored := by
  rcases queueItems_grows layer.needsReview items with ⟨grown, queued⟩
  constructor
  · rcases appendMany_ok appending with ⟨added, rfl, -⟩
    rw [log]
    exact List.prefix_append _ _
  · intro event offered
    rw [log]
    exact appendMany_holds appending offered
  · rw [queue]
    exact grown
  · rw [queue]
    exact queued

section Batch

variable (env) (actor : LayerActor) (body : BatchSubmitRequest)

def batchItems : List Json := body.needsReview.map fun item => withDefaults
  [("submitted_by", .obj (env.contracts.actorToDict actor)), ("source_ref", .str body.sourceRef),
    ("queued_at", .str body.recordedAt)] (.obj item)

theorem submitBatch_lands (moment : Moment) : Lands env.hash layer (batchEvents env actor body.events)
    (batchItems env actor body) (settle layer (submitBatch env moment layerId body actor layer)) := by
  cases outcome : submitBatch env moment layerId body actor layer with
  | error failure => rfl
  | ok result =>
    rcases result with ⟨stored, receipt⟩
    have accepted := gate_passed (gate_passed (rethrow_ok_iff.mp outcome))
    simp only at accepted
    change AllStored env.hash layer (batchEvents env actor body.events) (batchItems env actor body) stored
    unfold batchEvents batchItems
    split at accepted
    · next noEvents noItems =>
      cases accepted
      rw [noEvents, noItems]
      exact @allStored_of_append env.hash layer _ _ layer _ [] rfl rfl rfl
    · next noEvents _ =>
      rw [queueEvents_layer (mutate_ok accepted), noEvents]
      exact @allStored_of_append env.hash layer _ _ layer _ [] rfl rfl rfl
    · rcases submitAtomic_layer (mutate_ok accepted) with ⟨appended, ids, root, appending, finalizing⟩
      have kept : appended.needsReview = layer.needsReview := by
        rcases appendMany_ok appending with ⟨added, rfl, -⟩
        rfl
      apply allStored_of_append appending (finalizeLayer_ok finalizing).1
      rw [finalizeLayer_review finalizing, kept]

end Batch

section Command

variable (env) (sourceRef : String) (events queue : List Json) (actor : LayerActor)

def cmdItems : List Json := queue.map (withDefaults
  [("submitted_by", .obj (env.contracts.actorToDict actor)), ("source_ref", .str sourceRef)])

variable {env sourceRef events queue actor}

theorem cmdSubmitEvents_ok_iff {appended : Layer} {receipt : Receipt} :
    cmdSubmitEvents env layerId events actor layer = .ok (appended, receipt) ↔ ∃ ids, receipt = ⟨ids, 0, ""⟩ ∧
      appendMany env.hash layer (cmdEvents env actor events) = .ok (appended, ids) ∧
      (cmdEvents env actor events = [] ∨ Admits env layer appended) := by
  change (if cmdEvents env actor events = [] then _ else _) = _ ↔ _
  split
  · next none =>
    rw [none]
    constructor
    · intro accepted
      cases accepted
      exact ⟨[], rfl, rfl, .inl rfl⟩
    · intro given
      rcases given with ⟨ids, rfl, appending, -⟩
      cases appending
      rfl
  · next some =>
    rw [mutate_ok_iff, bind_ok_iff]
    constructor
    · intro given
      rcases given with ⟨⟨⟨_, ids⟩, appending, result⟩, admitted⟩
      cases result
      exact ⟨ids, rfl, appending, .inr admitted⟩
    · intro given
      rcases given with ⟨ids, rfl, appending, nothing | admitted⟩
      · exact absurd nothing some
      · exact ⟨⟨(appended, ids), appending, rfl⟩, admitted⟩

theorem cmdSubmitQueue_ok_iff {queued : Layer} {receipt : Receipt} :
    cmdSubmitQueue env layerId sourceRef queue actor layer = .ok (queued, receipt) ↔
      queued = { layer with needsReview := queueItems layer.needsReview (cmdItems env sourceRef queue actor) } ∧
      receipt = ⟨[], queued.needsReview.length - layer.needsReview.length, ""⟩ ∧
      (cmdItems env sourceRef queue actor = [] ∨
        ((layer.needsReview ++ cmdItems env sourceRef queue actor).all hashableKey = true ∧
          Admits env layer queued)) := by
  change (if cmdItems env sourceRef queue actor = [] then _ else _) = _ ↔ _
  split
  · next none =>
    rw [none]
    constructor
    · intro accepted
      cases accepted
      exact ⟨rfl, by simp, .inl rfl⟩
    · intro given
      rcases given with ⟨rfl, rfl, -⟩
      simp [queueItems, pure, Except.pure]
  · next some =>
    rw [mutate_ok_iff, queueEvents, bind_ok_iff]
    constructor
    · intro given
      rcases given with ⟨⟨⟨_, added⟩, queueing, result⟩, admitted⟩
      cases result
      rcases appendQueue_ok_iff.mp queueing with ⟨hashed, rfl, rfl⟩
      exact ⟨rfl, rfl, .inr ⟨hashed.resolve_left some, admitted⟩⟩
    · intro given
      rcases given with ⟨rfl, rfl, nothing | ⟨hashed, admitted⟩⟩
      · exact absurd nothing some
      · exact ⟨⟨_, appendQueue_ok_iff.mpr ⟨.inr hashed, rfl, rfl⟩, rfl⟩, admitted⟩

end Command

theorem appendMany_count {events : List Dict} {appended : Layer} {ids : List String}
    (accepted : appendMany H layer events = .ok (appended, ids)) :
    appended.events.length = layer.events.length + ids.length := by
  induction events generalizing layer ids with
  | nil =>
    cases accepted
    rfl
  | cons event rest ih =>
    rw [appendMany] at accepted
    rcases bind_ok_iff.mp accepted with ⟨⟨prepared, id⟩, preparation, accepted⟩
    simp only at accepted
    split at accepted
    · exact ih accepted
    · rcases bind_ok_iff.mp accepted with ⟨⟨longer, more⟩, later, accepted⟩
      cases accepted
      have counted := ih later
      simp only [List.length_append, List.length_nil, List.length_cons] at counted ⊢
      omega

/-- The events alone would be stored and change the log, and the queue items that come with them are refused
    after that: an item's key cannot go into a set, or the schema does not take the layer with the queue. -/
def HalfStored (env : Env) (layer : Layer) (events : List Dict) (items : List Json) : Prop :=
  ∃ appended id ids, appendMany env.hash layer events = .ok (appended, id :: ids) ∧ Admits env layer appended ∧
    items ≠ [] ∧ ((layer.needsReview ++ items).all hashableKey = false ∨
      env.contracts.validateLayer
        { appended with needsReview := queueItems layer.needsReview items } = false)

theorem appendMany_rest {appended : Layer} {events : List Dict} {ids : List String}
    (appending : appendMany env.hash layer events = .ok (appended, ids)) :
    appended.metadata = layer.metadata ∧ appended.needsReview = layer.needsReview := by
  rcases appendMany_ok appending with ⟨added, rfl, -⟩
  exact ⟨rfl, rfl⟩

theorem admits_queue {appended : Layer} {queue : List Json} (first : Admits env layer appended)
    (metadata : appended.metadata = layer.metadata)
    (valid : env.contracts.validateLayer { appended with needsReview := queue } = true) :
    Admits env appended { appended with needsReview := queue } := by
  refine ⟨valid, ?_⟩
  rcases first with ⟨-, admitted⟩
  cases backend : env.backend with
  | file =>
    rw [backend] at admitted
    rw [shellComplete, metadata]
    exact admitted
  | db =>
    rw [backend] at admitted
    exact ⟨List.prefix_rfl, admitted.2⟩

section Writes

variable {sourceRef : String} {events queue : List Json} {actor : LayerActor} {appended : Layer} {ids : List String}

theorem not_halfStored_of_refused {failure : Failure}
    (refused : cmdSubmitEvents env layerId events actor layer = .error failure) (items : List Json) :
    ¬ HalfStored env layer (cmdEvents env actor events) items := by
  intro given
  rcases given with ⟨appended, id, ids, appending, admitted, -⟩
  have stored := @cmdSubmitEvents_ok_iff env layer layerId events actor appended ⟨id :: ids, 0, ""⟩ |>.mpr
    ⟨_, rfl, appending, .inr admitted⟩
  rw [stored] at refused
  cases refused

theorem not_halfStored_of_taken (appending : appendMany env.hash layer (cmdEvents env actor events) = .ok (appended, ids))
    {queued : Layer} {receipt : Receipt}
    (second : cmdSubmitQueue env layerId sourceRef queue actor appended = .ok (queued, receipt)) :
    ¬ HalfStored env layer (cmdEvents env actor events) (cmdItems env sourceRef queue actor) := by
  intro given
  rcases given with ⟨again, id, more, repeated, -, some, refused⟩
  rw [appending] at repeated
  cases repeated
  rcases cmdSubmitQueue_ok_iff.mp second with ⟨rfl, -, taken⟩
  rcases taken.resolve_left some with ⟨hashed, valid, -⟩
  rw [(appendMany_rest appending).2] at hashed valid
  rcases refused with unhashed | invalid
  · rw [hashed] at unhashed
    cases unhashed
  · rw [valid] at invalid
    cases invalid

theorem unchanged_iff_of_untaken
    (appending : appendMany env.hash layer (cmdEvents env actor events) = .ok (appended, ids))
    (admitted : cmdEvents env actor events = [] ∨ Admits env layer appended) {failure : Failure}
    (second : cmdSubmitQueue env layerId sourceRef queue actor appended = .error failure) :
    appended = layer ↔ ¬ HalfStored env layer (cmdEvents env actor events) (cmdItems env sourceRef queue actor) := by
  constructor
  · rintro rfl ⟨again, id, more, repeated, -⟩
    rw [appending] at repeated
    cases repeated
    have count := appendMany_count appending
    rw [List.length_cons] at count
    omega
  · intro whole
    by_contra changed
    obtain ⟨id, rest, rfl⟩ : ∃ id rest, ids = id :: rest := by
      cases ids with
      | cons id rest => exact ⟨id, rest, rfl⟩
      | nil =>
        rcases appendMany_ok appending with ⟨added, rfl, -⟩
        have count := appendMany_count appending
        simp only [List.length_append, List.length_nil, Nat.add_zero, Nat.add_eq_left,
          List.length_eq_zero_iff] at count
        exact absurd (by simp [count]) changed
    have offered : cmdEvents env actor events ≠ [] := by
      intro none
      rw [none] at appending
      cases appending
    have stored := admitted.resolve_left offered
    -- were the items absent, or hashable and valid, the second write would have gone through
    have untaken : ¬ (cmdItems env sourceRef queue actor = [] ∨
        ((appended.needsReview ++ cmdItems env sourceRef queue actor).all hashableKey = true ∧
          Admits env appended { appended with
            needsReview := queueItems appended.needsReview (cmdItems env sourceRef queue actor) })) := by
      intro taken
      have passed := @cmdSubmitQueue_ok_iff env appended layerId sourceRef queue actor _ _ |>.mpr ⟨rfl, rfl, taken⟩
      rw [passed] at second
      cases second
    rcases appendMany_rest appending with ⟨metadata, kept⟩
    refine whole ⟨appended, id, rest, appending, stored, fun none => untaken (.inl none), ?_⟩
    by_contra taken
    simp only [not_or, Bool.not_eq_false] at taken
    rw [← kept] at taken
    exact untaken (.inr ⟨taken.1, admits_queue stored metadata taken.2⟩)

end Writes

theorem cmdSubmit_lands_iff {sourceRef : String} {events queue : List Json} {actor : LayerActor} :
    Lands env.hash layer (cmdEvents env actor events) (cmdItems env sourceRef queue actor)
        (cmdSubmit env layerId sourceRef events queue actor layer) ↔
      ¬ HalfStored env layer (cmdEvents env actor events) (cmdItems env sourceRef queue actor) := by
  unfold cmdSubmit
  cases first : cmdSubmitEvents env layerId events actor layer with
  | error failure => exact iff_of_true rfl (not_halfStored_of_refused first _)
  | ok result =>
    rcases result with ⟨appended, receipt⟩
    rcases cmdSubmitEvents_ok_iff.mp first with ⟨ids, -, appending, admitted⟩
    simp only [settle]
    cases second : cmdSubmitQueue env layerId sourceRef queue actor appended with
    | ok result =>
      rcases result with ⟨queued, more⟩
      rcases cmdSubmitQueue_ok_iff.mp second with ⟨rfl, -⟩
      refine iff_of_true ?_ (not_halfStored_of_taken appending second)
      exact allStored_of_append appending rfl (by rw [(appendMany_rest appending).2])
    | error failure => exact unchanged_iff_of_untaken appending admitted second

/-- A batch always lands whole or not at all; the command, which writes the events and the queue apart, does so
    exactly when it does not have to take the queue back after the events are stored. -/
theorem submission_lands_iff (env : Env) (layer : Layer) (moment : Moment) (layerId sourceRef : String)
    (body : BatchSubmitRequest) (events queue : List Json) (actor : LayerActor) :
    (Lands env.hash layer (batchEvents env actor body.events) (batchItems env actor body)
        (settle layer (submitBatch env moment layerId body actor layer)) ∧
      Lands env.hash layer (cmdEvents env actor events) (cmdItems env sourceRef queue actor)
        (cmdSubmit env layerId sourceRef events queue actor layer)) ↔
    ¬ HalfStored env layer (cmdEvents env actor events) (cmdItems env sourceRef queue actor) := by
  rw [cmdSubmit_lands_iff, and_iff_right (submitBatch_lands env actor body moment)]

def listQuoted : Layer × Outcome Receipt :=
  cmdSubmit referenceEnv "acme" "scan" [.obj scanEvent] [.obj [("quote", .arr [.str "line 3"])]] scannerAccount oneClaim

theorem cmdSubmit_half_stored :
    listQuoted.1.events.length = 1 ∧ listQuoted.2.isOk = false ∧
      ¬ Lands sha256 oneClaim (cmdEvents referenceEnv scannerAccount [.obj scanEvent])
        (cmdItems referenceEnv "scan" [.obj [("quote", .arr [.str "line 3"])]] scannerAccount) listQuoted := by
  have run : listQuoted.1.events.length = 1 ∧ listQuoted.2.isOk = false := by decide +kernel
  refine ⟨run.1, run.2, ?_⟩
  generalize listQuoted = outcome at run ⊢
  rcases outcome with ⟨stored, report⟩
  rcases run with ⟨count, failed⟩
  cases report with
  | ok receipt => cases failed
  | error failure =>
    rintro rfl
    cases count

end LedgerProof
