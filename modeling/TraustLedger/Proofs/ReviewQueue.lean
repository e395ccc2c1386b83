import TraustLedger.Proofs.AtomicSubmission

namespace LedgerProof

open Hashing Python Runs LedgerModel

variable {env : Env}

inductive QueueDoor where
  | batch (moment : Moment) (layerId sourceRef recordedAt : String) (events : List Dict) (actor : LayerActor)
  | command (layerId sourceRef : String) (events : List Json) (actor : LayerActor)
  | writer (layerId : String)

namespace QueueDoor

def defaults (env : Env) : QueueDoor → List (String × Json)
  | .batch _ _ sourceRef recordedAt _ actor =>
    [("submitted_by", .obj (env.contracts.actorToDict actor)), ("source_ref", .str sourceRef),
      ("queued_at", .str recordedAt)]
  | .command _ sourceRef _ actor =>
    [("submitted_by", .obj (env.contracts.actorToDict actor)), ("source_ref", .str sourceRef)]
  | .writer _ => []

def submit (env : Env) (item : Dict) (layer : Layer) : QueueDoor → Outcome Layer
  | .batch moment layerId sourceRef recordedAt events actor =>
    Prod.fst <$> submitBatch env moment layerId ⟨sourceRef, recordedAt, events, [item]⟩ actor layer
  | .command layerId sourceRef events actor =>
    match cmdSubmit env layerId sourceRef events [.obj item] actor layer with
    | (stored, .ok _) => .ok stored
    | (_, .error failure) => .error failure
  | .writer layerId => Prod.fst <$> appendNeedsReview env layerId [.obj item] layer

def stamped (env : Env) (door : QueueDoor) (item : Dict) : Dict :=
  (door.defaults env).foldl (fun item entry => Dict.setDefault item entry.1 entry.2) item

def key (env : Env) (door : QueueDoor) (item : Dict) : List Json := reviewItemKey (door.stamped env item)

end QueueDoor

def hasKey (itemKey : List Json) : Json → Bool
  | .obj held => sameKey (reviewItemKey held) itemKey
  | _ => false

def NonePending (itemKey : List Json) (queue : List Json) : Prop := ∀ entry ∈ queue, isPendingMatch itemKey entry = false

/-- What a resolution has to bring: a note to reject the item, an event under its reference to confirm it. -/
def Resolves (layer : Layer) (item : Dict) (status : String) (note : Option String) : Prop :=
  status = "rejected" ∧ named note = true ∨
    status = "confirmed" ∧ (item.get "suggested_finding_ref").truthy = true ∧
      layer.events.any (fun event => Json.pyEq (event.get "finding_ref") (item.get "suggested_finding_ref")) = true

/-- One item with the key is pending, and resolving the key closes that one and no other. -/
def Reopened (itemKey : List Json) (layer : Layer) : Prop :=
  ∃ before item after, layer.needsReview = before ++ .obj item :: after ∧ isPendingMatch itemKey (.obj item) = true ∧
    NonePending itemKey before ∧ NonePending itemKey after ∧
    ∀ status note, Resolves layer item status note → resolveReviewItem layer itemKey status note =
      .ok (some { layer with needsReview := before ++ .obj (closedItem status note item) :: after })

theorem closeFirst_split {itemKey : List Json} {status : String} {note : Option String} {before after : List Json}
    {item : Dict} (none_before : NonePending itemKey before) (pending : isPendingMatch itemKey (.obj item) = true) :
    closeFirst itemKey status note (before ++ .obj item :: after) =
      before ++ .obj (closedItem status note item) :: after := by
  induction before with
  | nil =>
    rw [List.nil_append, closeFirst, if_pos pending]
    rfl
  | cons entry before ih =>
    rw [NonePending, List.forall_mem_cons] at none_before
    simp only [List.cons_append, closeFirst, none_before.1, Bool.false_eq_true, if_false, ih none_before.2]

theorem find_pending {itemKey : List Json} {before after : List Json} {entry : Json}
    (none_before : NonePending itemKey before) (pending : isPendingMatch itemKey entry = true) :
    (before ++ entry :: after).find? (isPendingMatch itemKey) = some entry := by
  rw [List.find?_append, List.find?_eq_none.mpr fun held member => by simp [none_before held member]]
  simp [pending]

theorem reopened_of_single {itemKey : List Json} {layer : Layer} {before after : List Json} {item : Dict}
    (queue : layer.needsReview = before ++ .obj item :: after) (pending : isPendingMatch itemKey (.obj item) = true)
    (none_before : NonePending itemKey before) (none_after : NonePending itemKey after) : Reopened itemKey layer := by
  refine ⟨before, item, after, queue, pending, none_before, none_after, fun status note resolves => ?_⟩
  unfold resolveReviewItem
  rw [queue, find_pending none_before pending, closeFirst_split none_before pending]
  rcases resolves with ⟨rfl, noted⟩ | ⟨rfl, referenced, recorded⟩
  · simp [noted, require, bind, Except.bind, pure, Except.pure]
  · simp [referenced, recorded, require, bind, Except.bind, pure, Except.pure]

theorem queueItems_single (queue : List Json) (item : Dict) :
    queueItems queue [.obj item] = if queue.any (hasKey (reviewItemKey item)) then queue
      else queue ++ [.obj (item.setDefault "status" (.str "pending"))] := by
  rw [queueItems, queueItems, reviewItemKey_setDefault]
  rfl

theorem submitBatch_queue {moment : Moment} {layerId : String} {body : BatchSubmitRequest} {actor : LayerActor}
    {layer next : Layer} {receipt : Receipt}
    (accepted : submitBatch env moment layerId body actor layer = .ok (next, receipt)) :
    next.needsReview = queueItems layer.needsReview (batchItems env actor body) := by
  have mutation := gate_passed (gate_passed (rethrow_ok_iff.mp accepted))
  simp only at mutation
  rw [batchItems]
  split at mutation
  · next _ none =>
    cases mutation
    rw [none, queueItems]
  · rw [queueEvents_layer (mutate_ok mutation)]
  · rcases submitAtomic_layer (mutate_ok mutation) with ⟨appended, ids, root, appending, finalizing⟩
    rcases appendMany_ok appending with ⟨added, rfl, -⟩
    exact finalizeLayer_review finalizing

theorem submitBatch_log {moment : Moment} {layerId : String} {body : BatchSubmitRequest} {actor : LayerActor}
    {layer next : Layer} {receipt : Receipt}
    (accepted : submitBatch env moment layerId body actor layer = .ok (next, receipt)) :
    ∃ appended ids, appendMany env.hash layer (batchEvents env actor body.events) = .ok (appended, ids) ∧
      next.events = appended.events := by
  have mutation := gate_passed (gate_passed (rethrow_ok_iff.mp accepted))
  simp only at mutation
  rw [batchEvents]
  split at mutation
  · next none _ =>
    cases mutation
    rw [none]
    exact ⟨layer, [], rfl, rfl⟩
  · next none _ =>
    rw [queueEvents_layer (mutate_ok mutation), none]
    exact ⟨layer, [], rfl, rfl⟩
  · rcases submitAtomic_layer (mutate_ok mutation) with ⟨appended, ids, root, appending, finalizing⟩
    exact ⟨appended, ids, appending, (finalizeLayer_ok finalizing).1⟩

theorem submit_queue {door : QueueDoor} {item : Dict} {layer next : Layer}
    (accepted : door.submit env item layer = .ok next) :
    next.needsReview = queueItems layer.needsReview [.obj (door.stamped env item)] := by
  cases door with
  | batch moment layerId sourceRef recordedAt events actor =>
    rcases map_fst_ok accepted with ⟨receipt, accepted⟩
    exact submitBatch_queue accepted
  | command layerId sourceRef events actor =>
    change (match cmdSubmit env layerId sourceRef events [.obj item] actor layer with
      | (stored, .ok _) => Except.ok stored
      | (_, .error failure) => .error failure) = .ok next at accepted
    unfold cmdSubmit at accepted
    cases first : cmdSubmitEvents env layerId events actor layer with
    | error failure =>
      rw [first] at accepted
      cases accepted
    | ok result =>
      rcases result with ⟨appended, receipt⟩
      simp only [first, settle] at accepted
      cases second : cmdSubmitQueue env layerId sourceRef [.obj item] actor appended with
      | error failure =>
        rw [second] at accepted
        cases accepted
      | ok answer =>
        rcases answer with ⟨queued, more⟩
        rw [second] at accepted
        cases accepted
        rcases cmdSubmitEvents_ok_iff.mp first with ⟨ids, -, appending, -⟩
        rcases appendMany_ok appending with ⟨added, rfl, -⟩
        rcases cmdSubmitQueue_ok_iff.mp second with ⟨rfl, -⟩
        rfl
  | writer layerId =>
    rcases map_fst_ok accepted with ⟨receipt, accepted⟩
    rw [queueEvents_layer (mutate_ok accepted)]
    rfl

theorem lookup_setDefault_ne (d : Dict) {key k : String} (other : k ≠ key) (value : Json) :
    (d.setDefault key value).lookup k = d.lookup k := by
  unfold Dict.setDefault
  split
  · rfl
  · rw [Dict.lookup_set, if_neg other]

theorem lookup_defaults {defaults : List (String × Json)} {key : String} (own : ∀ entry ∈ defaults, key ≠ entry.1)
    (item : Dict) :
    (defaults.foldl (fun item entry => Dict.setDefault item entry.1 entry.2) item).lookup key = item.lookup key := by
  induction defaults generalizing item with
  | nil => rfl
  | cons entry defaults ih =>
    rw [List.forall_mem_cons] at own
    rw [List.foldl_cons, ih own.2, lookup_setDefault_ne _ own.1]

theorem QueueDoor.defaults_keys (door : QueueDoor) :
    ∀ entry ∈ door.defaults env, entry.1 ∈ ["submitted_by", "source_ref", "queued_at"] := by
  cases door <;> simp [QueueDoor.defaults]

theorem queued_pending_iff (door : QueueDoor) (item : Dict) :
    isPendingMatch (door.key env item) (.obj ((door.stamped env item).setDefault "status" (.str "pending"))) = true ↔
      item.has "status" = false ∨ item.get "status" = .str "pending" := by
  have own : (door.stamped env item).lookup "status" = item.lookup "status" := by
    refine lookup_defaults (fun entry member same => ?_) item
    have known := door.defaults_keys entry member
    rw [← same] at known
    simp at known
  have same : sameKey (reviewItemKey ((door.stamped env item).setDefault "status" (.str "pending")))
      (door.key env item) = true := by
    rw [reviewItemKey_setDefault]
    exact sameKey_refl _
  rw [isPendingMatch, same, Bool.and_true, decide_eq_true_eq, get_setDefault]
  simp only [Dict.has, Dict.get, Dict.getD, own]
  cases item.lookup "status" <;> simp

/-- Queueing an item again opens it exactly where no item with its key, of whatever status, is in the queue, and
    the item says nothing but that it is pending. -/
theorem requeue_reopens_iff (env : Env) (door : QueueDoor) (item : Dict) (layer next : Layer)
    (settled : NonePending (door.key env item) layer.needsReview)
    (accepted : door.submit env item layer = .ok next) :
    Reopened (door.key env item) next ↔ (∀ entry ∈ layer.needsReview, hasKey (door.key env item) entry = false) ∧
      (item.has "status" = false ∨ item.get "status" = .str "pending") := by
  have queue := submit_queue accepted
  rw [queueItems_single, ← QueueDoor.key] at queue
  rw [← queued_pending_iff door item]
  constructor
  · intro reopened
    rcases reopened with ⟨before, held, after, split, pending, -⟩
    have member : .obj held ∈ next.needsReview := by
      rw [split]
      exact List.mem_append_right _ List.mem_cons_self
    by_cases known : layer.needsReview.any (hasKey (door.key env item)) = true
    · rw [queue, if_pos known] at member
      rw [settled _ member] at pending
      cases pending
    · have free : ∀ entry ∈ layer.needsReview, hasKey (door.key env item) entry = false := by
        simpa using known
      refine ⟨free, ?_⟩
      rw [queue, if_neg known, List.mem_append, List.mem_singleton] at member
      rcases member with old | new
      · rw [settled _ old] at pending
        cases pending
      · rw [← new]
        exact pending
  · intro given
    rcases given with ⟨free, pending⟩
    have unknown : ¬ layer.needsReview.any (hasKey (door.key env item)) = true := by simpa using free
    rw [if_neg unknown] at queue
    exact reopened_of_single queue pending settled (by simp [NonePending])

def reviewItem : Dict :=
  Dict.ofList [("suggested_finding_ref", .str "FIND-1"), ("queue_reason", .str "ambiguous"), ("quote", .str "see line 3")]

def reviewDoor : QueueDoor := .batch unsigned "acme" "scan-1" sampleInstant [] scannerAccount

theorem requeue_reopens_iff_new : ∃ next, reviewDoor.submit referenceEnv reviewItem oneClaim = .ok next ∧
    Reopened (reviewDoor.key referenceEnv reviewItem) next := by
  have taken : (reviewDoor.submit referenceEnv reviewItem oneClaim).isOk = true := by decide +kernel
  rcases exists_of_isOk taken with ⟨next, accepted⟩
  refine ⟨next, accepted, ?_⟩
  have empty : oneClaim.needsReview = [] := rfl
  exact (requeue_reopens_iff referenceEnv reviewDoor reviewItem oneClaim next (by simp [empty, NonePending]) accepted).mpr
    ⟨by simp [empty], .inl rfl⟩

/-- An item that was rejected and is queued again: accepted, and not there. -/
theorem requeued_stays_closed : ∃ queued closed next,
    reviewDoor.submit referenceEnv reviewItem oneClaim = .ok queued ∧
    resolveReviewItem queued (reviewDoor.key referenceEnv reviewItem) "rejected" (some "no such flaw") =
      .ok (some closed) ∧
    NonePending (reviewDoor.key referenceEnv reviewItem) closed.needsReview ∧
    reviewDoor.submit referenceEnv reviewItem closed = .ok next ∧
    ¬ Reopened (reviewDoor.key referenceEnv reviewItem) next := by
  have run : (okAnd (reviewDoor.submit referenceEnv reviewItem oneClaim) fun queued =>
      okAnd (resolveReviewItem queued (reviewDoor.key referenceEnv reviewItem) "rejected" (some "no such flaw"))
        fun answer => answer.any fun closed =>
          (closed.needsReview.all fun entry => !isPendingMatch (reviewDoor.key referenceEnv reviewItem) entry) &&
          okAnd (reviewDoor.submit referenceEnv reviewItem closed) fun next =>
            next.needsReview.all fun entry => !isPendingMatch (reviewDoor.key referenceEnv reviewItem) entry) = true := by
    decide +kernel
  rcases okAnd_iff.mp run with ⟨queued, first, run⟩
  rcases okAnd_iff.mp run with ⟨answer, resolved, run⟩
  rcases (Option.any_eq_true _ _).mp run with ⟨closed, rfl, run⟩
  rcases Bool.and_eq_true_iff.mp run with ⟨quiet, run⟩
  rcases okAnd_iff.mp run with ⟨next, second, absent⟩
  refine ⟨queued, closed, next, first, resolved, fun entry member => ?_, second, ?_⟩
  · simpa using List.all_eq_true.mp quiet entry member
  · intro reopened
    rcases reopened with ⟨before, item, after, split, pending, -⟩
    have member : .obj item ∈ next.needsReview := by
      rw [split]
      exact List.mem_append_right _ List.mem_cons_self
    have still := List.all_eq_true.mp absent _ member
    rw [pending] at still
    cases still

end LedgerProof
