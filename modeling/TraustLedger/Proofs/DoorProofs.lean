import TraustLedger.Proofs.WriterProofs
import TraustLedger.System
import Mathlib.Data.List.Forall2

namespace LedgerProof

open Hashing Python Runs LedgerModel

variable {env : Env}

def actorOf (event : Dict) : Dict :=
  match event.get "source" with
  | .obj source => match Dict.get source "actor" with
    | .obj actor => actor
    | _ => []
  | _ => []

def restatementId (H : HashFunction) (block : Dict) (actor : LayerActor) (recordedAt : String) : String :=
  computeEventId H
    (.str (restatementSourceRef H (block.remove "finding_ref") (actor.identity.getD "") recordedAt))
    (restatedFindingRef block) .null .null

structure RecordedAs (env : Env) (block : Dict) (actor : LayerActor) (event : Dict) : Prop where
  restates : isRestatement event = .ok true
  target : (restatementBlock event).get "target" = block.get "target"
  before : (restatementBlock event).get "before" = block.get "before"
  after : (restatementBlock event).get "after" = block.get "after"
  ticket : ticketOf (restatementBlock event) = ticketOf block
  actor : actorOf event = env.contracts.actorToDict actor

theorem RecordedAs.congr {block event prepared : Dict} {actor : LayerActor}
    (recorded : RecordedAs env block actor event) (same : SameRestatement event prepared) :
    RecordedAs env block actor prepared := by
  have blocks := restatementBlock_congr same
  have actors : actorOf prepared = actorOf event := by
    unfold actorOf
    rw [same.2]
  exact ⟨(isRestatement_congr same).trans recorded.restates, by rw [blocks, recorded.target],
    by rw [blocks, recorded.before], by rw [blocks, recorded.after], by rw [blocks, recorded.ticket],
    actors.trans recorded.actor⟩

theorem ticketOf_remove (block : Dict) : ticketOf (block.remove "finding_ref") = ticketOf block := by
  unfold ticketOf
  rw [Dict.get_remove, if_neg (by decide)]

theorem restatementTarget_ok {block : Dict} {target : String} (accepted : restatementTarget block = .ok target) :
    block.get "target" = .str target ∧ target ∈ signedMetadataFields := by
  unfold restatementTarget at accepted
  split at accepted
  · next text held =>
    split at accepted
    · next known =>
      cases accepted
      exact ⟨held, known⟩
    · cases accepted
  all_goals cases accepted

theorem requireRestatementAuthority_ok {block : Dict} {u : Unit}
    (accepted : requireRestatementAuthority block = .ok u) : ticketed (ticketOf block) = true := by
  unfold requireRestatementAuthority at accepted
  replace accepted := gate_passed accepted
  obtain ⟨_, ticket, -⟩ := bind_ok_iff.mp accepted
  exact require_ok_iff.mp ticket

theorem dumpEvent_ok {built : LayerEvent} {event : Dict} (dumped : dumpEvent env built = .ok event) :
    env.contracts.eventToDict built = some event := by
  unfold dumpEvent at dumped
  split at dumped
  · next found =>
    cases dumped
    exact found
  · cases dumped

theorem canonicalId_dump {built : LayerEvent} {event : Dict} (dump : env.contracts.eventToDict built = some event) :
    canonicalId env.hash event = .ok (computeEventId env.hash (.str built.sourceRef) (.str built.findingRef)
      (optionalText built.validity) .null) := by
  obtain ⟨source, sourceHeld, -, sourceRef, -⟩ := env.contracts.event_source _ _ dump
  obtain ⟨disposition, dispositionHeld, validity, resolution, -⟩ := env.contracts.event_disposition _ _ dump
  have findingRef := env.contracts.event_finding_ref _ _ dump
  have named : event.getD "finding_ref" (.str "") = .str built.findingRef := by
    have present := @Dict.has_of_get_ne_null event "finding_ref" (by simp [findingRef])
    obtain ⟨value, lookup⟩ := (Dict.has_iff_lookup _ _).mp present
    rw [Dict.get_eq_of_lookup lookup] at findingRef
    simp [Dict.getD, lookup, findingRef]
  have referenced : Dict.getD source "ref" (.str "") = .str built.sourceRef := by
    simp [Dict.getD, sourceRef]
  unfold canonicalId
  rw [sourceHeld, dispositionHeld]
  simp [orEmpty, bind, Except.bind, pure, Except.pure, named, referenced, validity, resolution]

theorem dump_restatement {block event : Dict} {rationale recordedAt : String} {actor : LayerActor}
    {built : LayerEvent}
    (building : buildRestatementEvent env.hash (block.remove "finding_ref") rationale actor recordedAt
      (restatedFindingRef block) = .ok built) (dumped : dumpEvent env built = .ok event) :
    RecordedAs env block actor event ∧
      canonicalId env.hash event = .ok (restatementId env.hash block actor recordedAt) := by
  have dump := dumpEvent_ok dumped
  unfold buildRestatementEvent at building
  replace building := gate_passed building
  split at building
  case h_2 => cases building
  next ref found =>
  cases building
  obtain ⟨source, sourceHeld, type, -, actorHeld⟩ := env.contracts.event_source _ _ dump
  obtain ⟨stored, blockHeld, target, before, after, ticket⟩ := env.contracts.event_restatement _ _ _ dump rfl
  have held : restatementBlock event = stored := by simp [restatementBlock, blockHeld]
  constructor
  · refine ⟨isRestatement_true_iff.mpr ⟨stored, source, blockHeld, sourceHeld, type⟩, ?_, ?_, ?_, ?_, ?_⟩
    · rw [held, target, Dict.get_remove, if_neg (by decide)]
    · rw [held, before, Dict.get_remove, if_neg (by decide)]
    · rw [held, after, Dict.get_remove, if_neg (by decide)]
    · rw [held, ticket, ticketOf_remove]
    · simp [actorOf, sourceHeld, actorHeld]
  · rw [canonicalId_dump dump, restatementId, found]
    rfl

theorem restatementEvent_ok {moment : Moment} {block event : Dict} {rationale recordedAt target : String}
    {actor : LayerActor}
    (accepted : restatementEvent env moment block rationale actor recordedAt = .ok (target, event)) :
    block.get "target" = .str target ∧ target ∈ signedMetadataFields ∧ requireVerifiedHuman actor = .ok () ∧
      ticketed (ticketOf block) = true ∧ RecordedAs env block actor event ∧
      canonicalId env.hash event = .ok (restatementId env.hash block actor recordedAt) := by
  unfold restatementEvent at accepted
  replace accepted := gate_passed accepted
  obtain ⟨_, human, accepted⟩ := bind_ok_iff.mp accepted
  replace accepted := gate_passed accepted
  replace accepted := gate_passed accepted
  obtain ⟨_, authority, accepted⟩ := bind_ok_iff.mp accepted
  obtain ⟨named, known, accepted⟩ := bind_ok_iff.mp accepted
  obtain ⟨built, building, accepted⟩ := bind_ok_iff.mp accepted
  obtain ⟨dumped, dumping, accepted⟩ := bind_ok_iff.mp accepted
  cases accepted
  obtain ⟨held, signed⟩ := restatementTarget_ok known
  obtain ⟨recorded, canonical⟩ := dump_restatement building dumping
  exact ⟨held, signed, human, requireRestatementAuthority_ok authority, recorded, canonical⟩

theorem requireFreshRestatement_ok {block : Dict} {actual : Json} {u : Unit}
    (accepted : requireFreshRestatement block actual = .ok u) :
    (∀ before held, block.get "before" = .obj before → actual = .obj held →
      ∀ key value, before.lookup key = some value → Json.pyEq (Dict.get held key) value = true) ∧
    (actual.isObj = false → Json.pyEq (block.get "before") actual = true) := by
  unfold requireFreshRestatement at accepted
  split at accepted
  · next before held hb =>
    rw [require_ok_iff, List.filter_eq_nil_iff] at accepted
    refine ⟨?_, fun shape => ?_⟩
    · intro before' held' hb' ha' key value found
      rw [hb] at hb'
      cases hb'
      cases ha'
      simpa using accepted (key, value) (Dict.mem_items.mpr found)
    · cases shape
  · next notBoth =>
    rw [require_ok_iff] at accepted
    refine ⟨?_, fun _ => accepted⟩
    intro before held hb ha
    exact absurd ha (notBoth before held hb)

theorem requireMonotonicRestatement_ok {block : Dict} {events : List Dict} {target : String} {u : Unit}
    (held : block.get "target" = .str target) (accepted : requireMonotonicRestatement block events = .ok u) :
    (∀ after, block.get "after" = .obj after → ∀ key value, after.lookup key = some value →
      ∃ retired, retiredValues events target (some key) = .ok retired ∧ Json.pyIn value retired = false) ∧
    ((block.get "after").isObj = false →
      ∃ retired, retiredValues events target none = .ok retired ∧ Json.pyIn (block.get "after") retired = false) := by
  have text : pyStr (block.get "target") = target := by simp [held, pyStr]
  unfold requireMonotonicRestatement at accepted
  rw [text] at accepted
  split at accepted
  · next after shape =>
    obtain ⟨replayed, filtered, accepted⟩ := bind_ok_iff.mp accepted
    rw [require_ok_iff] at accepted
    subst accepted
    refine ⟨?_, fun flat => by simp [shape, Json.isObj] at flat⟩
    intro after' shape' key value found
    rw [shape] at shape'
    cases shape'
    obtain ⟨answer, tested, kept⟩ := filterM_ok filtered (key, value) (Dict.mem_items.mpr found)
    obtain ⟨retired, read, answered⟩ := bind_ok_iff.mp tested
    cases answered
    exact ⟨retired, read, by simpa using kept⟩
  · next after notObject =>
    obtain ⟨retired, read, accepted⟩ := bind_ok_iff.mp accepted
    rw [require_ok_iff] at accepted
    refine ⟨?_, fun _ => ⟨retired, read, accepted⟩⟩
    intro after' shape'
    exact absurd shape' (notObject after')

/-- Everything an accepted restatement checked and did. -/
structure RestateEffect (env : Env) (block : Dict) (actor : LayerActor) (recordedAt target : String) (event : Dict)
    (layer next : Layer) : Prop where
  blockTarget : block.get "target" = .str target
  signed : target ∈ signedMetadataFields
  human : requireVerifiedHuman actor = .ok ()
  ticket : ticketed (ticketOf block) = true
  recorded : RecordedAs env block actor event
  freshEntry : ∀ before held, block.get "before" = .obj before → layer.metadata.get target = .obj held →
    ∀ key value, before.lookup key = some value → Json.pyEq (Dict.get held key) value = true
  freshWhole : (layer.metadata.get target).isObj = false →
    Json.pyEq (block.get "before") (layer.metadata.get target) = true
  monotonicEntry : ∀ after, block.get "after" = .obj after → ∀ key value, after.lookup key = some value →
    ∃ retired, retiredValues layer.events target (some key) = .ok retired ∧ Json.pyIn value retired = false
  monotonicWhole : (block.get "after").isObj = false → ∃ retired,
    retiredValues layer.events target none = .ok retired ∧ Json.pyIn (block.get "after") retired = false
  events : next.events = if holdsId layer.events (restatementId env.hash block actor recordedAt) then layer.events
    else layer.events ++ [event]
  metadata : ∀ field ∈ signedMetadataFields, next.metadata.get field =
    if field = target then mergeDelta (layer.metadata.get target) (block.get "after") else layer.metadata.get field

theorem applyRestatement_ok {moment : Moment} {layerId rationale recordedAt : String} {block : Dict}
    {actor : LayerActor} {layer next : Layer} {receipt : Receipt}
    (accepted : applyRestatement env moment layerId block rationale actor recordedAt layer = .ok (next, receipt)) :
    ∃ target event, RestateEffect env block actor recordedAt target event layer next := by
  unfold applyRestatement at accepted
  obtain ⟨⟨target, event⟩, gated, accepted⟩ := bind_ok_iff.mp accepted
  obtain ⟨held, signed, human, ticket, recorded, canonical⟩ := restatementEvent_ok gated
  have mutation := mutate_ok accepted
  obtain ⟨_, gates, mutation⟩ := bind_ok_iff.mp mutation
  obtain ⟨⟨changed, id⟩, appending, mutation⟩ := bind_ok_iff.mp mutation
  obtain ⟨⟨finalized, root⟩, finalizing, mutation⟩ := bind_ok_iff.mp mutation
  cases mutation
  replace gates := gate_passed gates
  replace gates := gate_passed gates
  obtain ⟨_, fresh, monotonic⟩ := bind_ok_iff.mp gates
  have heldAs : ∀ key, key ≠ "finding_ref" → (block.remove "finding_ref").get key = block.get key := by
    intro key other
    rw [Dict.get_remove, if_neg other]
  obtain ⟨freshEntry, freshWhole⟩ := requireFreshRestatement_ok fresh
  obtain ⟨monotonicEntry, monotonicWhole⟩ :=
    requireMonotonicRestatement_ok (by rw [heldAs _ (by decide), held]) monotonic
  rw [heldAs _ (by decide)] at freshEntry freshWhole monotonicEntry monotonicWhole appending
  obtain ⟨prepared, preparation, events, metadata⟩ := appendRestatement_ok appending
  obtain ⟨-, computed, same⟩ := prepareEvent_ok preparation
  obtain ⟨finalEvents, finalMetadata⟩ := finalizeLayer_ok finalizing
  rw [canonical] at computed
  cases computed
  refine ⟨target, prepared, held, signed, human, ticket, recorded.congr same, freshEntry, freshWhole,
    monotonicEntry, monotonicWhole, ?_, fun field member => ?_⟩
  · rw [finalEvents, events]
  · rw [finalMetadata field (signed_not_stampKey member), metadata]

def patched (held : Json) (update : Option Json) : Json := update.elim held (patchValue held)

theorem get_applyUpdates (metadata updates : Dict) (field : String) :
    (applyUpdates metadata updates).get field = patched (metadata.get field) (updates.lookup field) := by
  have written : (updates.map fun entry => (entry.1, patchValue (metadata.get entry.1) entry.2)).lookup field =
      (updates.lookup field).map (patchValue (metadata.get field)) := by
    induction updates with
    | nil => rfl
    | cons entry rest ih =>
      rw [List.map_cons, Dict.lookup_cons_ite, Dict.lookup_cons_ite]
      by_cases same : field = entry.1
      · simp [same]
      · rw [if_neg same, if_neg same, ih]
  rw [applyUpdates, Dict.get, Dict.lookup_update, written]
  cases updates.lookup field with
  | none => rfl
  | some value => rfl

structure PatchEffect (updates : Dict) (layer next : Layer) : Prop where
  events : next.events = layer.events
  metadata : ∀ field ∈ signedMetadataFields,
    next.metadata.get field = patched (layer.metadata.get field) (updates.lookup field)
  kept : ∀ field ∈ signedMetadataFields,
    isDestructiveChange (layer.metadata.get field) (next.metadata.get field) = false

theorem patchMetadata_ok {moment : Moment} {layerId : String} {updates : Dict} {layer next : Layer}
    {receipt : Receipt} (accepted : patchMetadata env moment layerId updates layer = .ok (next, receipt)) :
    PatchEffect updates layer next := by
  unfold patchMetadata asLedgerError at accepted
  rw [rethrow_ok_iff] at accepted
  have mutation := mutate_ok accepted
  obtain ⟨_, additive, mutation⟩ := bind_ok_iff.mp mutation
  obtain ⟨⟨finalized, root⟩, finalizing, mutation⟩ := bind_ok_iff.mp mutation
  cases mutation
  obtain ⟨events, metadata⟩ := finalizeLayer_ok finalizing
  rw [require_ok_iff, List.filter_eq_nil_iff] at additive
  have stored : ∀ field ∈ signedMetadataFields,
      next.metadata.get field = patched (layer.metadata.get field) (updates.lookup field) := by
    intro field member
    have notUpdated : field ≠ "updated" := by
      rintro rfl
      revert member
      decide
    rw [metadata field (signed_not_stampKey member), Dict.get_set, if_neg notUpdated, get_applyUpdates]
  refine ⟨events, stored, fun field member => ?_⟩
  have passed := additive field member
  rw [get_applyUpdates, ← stored field member] at passed
  simpa using passed

def submissions : Call → List (Dict × LayerActor)
  | .submitEvent _ kind event actor => match parseEventKind kind with
    | .ok kind => if kind.isBirth then [(event, actor)] else []
    | .error _ => []
  | .submitBatch _ _ body actor => body.events.map fun event => (event, actor)
  | .cmdSubmitEvents _ events actor => events.filterMap fun
    | .obj event => some (event, actor)
    | _ => none
  | _ => []

/-- An event a door without the authority gate stored: where it restates, its body did. -/
def Submitted (env : Env) (submitted : List (Dict × LayerActor)) (event : Dict) : Prop :=
  (∃ answer, isRestatement event = .ok answer) ∧ (isRestatement event = .ok true → ∃ body actor,
    (body, actor) ∈ submitted ∧ isRestatement body = .ok true ∧
    event.get "restatement" = body.get "restatement" ∧ actorOf event = env.contracts.actorToDict actor)

structure SubmitEffect (env : Env) (submitted : List (Dict × LayerActor)) (layer next : Layer) : Prop where
  metadata : ∀ field ∈ signedMetadataFields, next.metadata.get field = layer.metadata.get field
  events : ∃ kept added, next.events = kept ++ added ∧ List.Forall₂ SameRestatement layer.events kept ∧
    ∀ event ∈ added, Submitted env submitted event

theorem same_log (events : List Dict) : List.Forall₂ SameRestatement events events :=
  List.forall₂_same.mpr fun event _ => SameRestatement.refl event

theorem SubmitEffect.of_frame {submitted : List (Dict × LayerActor)} {layer next : Layer}
    (events : next.events = layer.events)
    (metadata : ∀ field ∈ signedMetadataFields, next.metadata.get field = layer.metadata.get field) :
    SubmitEffect env submitted layer next :=
  ⟨metadata, layer.events, [], by simp [events], same_log _, by simp⟩

theorem SubmitEffect.of_append {submitted : List (Dict × LayerActor)} {layer next : Layer} {added : List Dict}
    (events : next.events = layer.events ++ added)
    (metadata : ∀ field ∈ signedMetadataFields, next.metadata.get field = layer.metadata.get field)
    (all : ∀ event ∈ added, Submitted env submitted event) : SubmitEffect env submitted layer next :=
  ⟨metadata, layer.events, added, events, same_log _, all⟩

theorem Submitted.of_stamped {submitted : List (Dict × LayerActor)} {body stamped event : Dict} {actor : LayerActor}
    (member : (body, actor) ∈ submitted) (block : stamped.get "restatement" = body.get "restatement")
    (source : ∀ held, stamped.get "source" = .obj held → Dict.get held "type" = .str "restatement" →
      Dict.get held "actor" = .obj (env.contracts.actorToDict actor) ∧
      ∃ original, body.get "source" = .obj original ∧ Dict.get original "type" = .str "restatement")
    (readable : ∃ answer, isRestatement stamped = .ok answer) (same : SameRestatement stamped event) :
    Submitted env submitted event := by
  rw [Submitted, isRestatement_congr same]
  refine ⟨readable, fun restating => ?_⟩
  obtain ⟨fields, held, hasBlock, hasSource, type⟩ := isRestatement_true_iff.mp restating
  obtain ⟨stampedActor, original, bodySource, bodyType⟩ := source held hasSource type
  refine ⟨body, actor, member, ?_, same.1.trans block, ?_⟩
  · exact isRestatement_true_iff.mpr ⟨fields, original, block ▸ hasBlock, bodySource, bodyType⟩
  · simp [actorOf, same.2, hasSource, stampedActor]

theorem Submitted.of_stampSource {submitted : List (Dict × LayerActor)} {body event : Dict} {actor : LayerActor}
    (member : (body, actor) ∈ submitted)
    (readable : ∃ answer, isRestatement (stampSourceOnEvent env actor body) = .ok answer)
    (same : SameRestatement (stampSourceOnEvent env actor body) event) : Submitted env submitted event := by
  refine Submitted.of_stamped member ?_ ?_ readable same
  · simp [stampSourceOnEvent]
  · intro held stored type
    simp only [stampSourceOnEvent, Dict.get_set, if_true, Json.obj.injEq] at stored
    subst stored
    refine ⟨by simp, ?_⟩
    cases original : body.get "source" with
    | obj source => exact ⟨source, rfl, by simpa [original] using type⟩
    | _ =>
      rw [Dict.get_set, original] at type
      simp [Dict.get] at type

theorem Submitted.of_stampActor {submitted : List (Dict × LayerActor)} {body event : Dict} {actor : LayerActor}
    (member : (body, actor) ∈ submitted)
    (readable : ∃ answer, isRestatement ((stampActorOnEvent env body actor).remove "layer_id") = .ok answer)
    (same : SameRestatement ((stampActorOnEvent env body actor).remove "layer_id") event) :
    Submitted env submitted event := by
  refine Submitted.of_stamped member ?_ ?_ readable same
  · unfold stampActorOnEvent
    split <;> simp
  · intro held stored type
    rw [Dict.get_remove, if_neg (by decide)] at stored
    unfold stampActorOnEvent at stored
    split at stored
    · next source original =>
      simp only [Dict.get_set, if_true, Json.obj.injEq] at stored
      subst stored
      exact ⟨by simp, source, original, by simpa using type⟩
    · next notObject => exact absurd stored (notObject held)

theorem eventPayload_ok {kind : EventKind} {rawEvent payload : Dict} {actor : LayerActor}
    {findingRef rationale recordedAt validity : String}
    (accepted : eventPayload env kind rawEvent actor findingRef rationale recordedAt = .ok (payload, validity)) :
    (kind.isBirth = true ∧ payload = (stampActorOnEvent env rawEvent actor).remove "layer_id") ∨
      payload.get "restatement" = .null := by
  unfold eventPayload at accepted
  split at accepted
  · replace accepted := gate_passed accepted
    obtain ⟨dumped, dumping, accepted⟩ := bind_ok_iff.mp accepted
    cases accepted
    exact Or.inr (env.contracts.event_restatement_none _ _ (dumpEvent_ok dumping) rfl)
  · obtain ⟨decision, -, accepted⟩ := bind_ok_iff.mp accepted
    obtain ⟨built, building, accepted⟩ := bind_ok_iff.mp accepted
    replace accepted := gate_passed accepted
    obtain ⟨dumped, dumping, accepted⟩ := bind_ok_iff.mp accepted
    cases accepted
    replace building := gate_passed building
    cases building
    exact Or.inr (env.contracts.event_restatement_none _ _ (dumpEvent_ok dumping) rfl)
  · next notSeverity notCountersign =>
    cases accepted
    refine Or.inl ⟨?_, rfl⟩
    cases kind with
    | countersign => exact absurd rfl notCountersign
    | severity => exact absurd rfl notSeverity
    | _ => rfl

theorem submittedEvent_payload {moment : Moment} {kind : EventKind} {rawEvent payload : Dict} {actor : LayerActor}
    {findingRef validity : String}
    (accepted : submittedEvent env moment kind rawEvent actor = .ok (findingRef, payload, validity)) :
    (findingRef = firstText rawEvent "finding_ref" "finding_fingerprint" ∧ findingRef ≠ "") ∧
      (kind.isBirth = true ∨ actor.identity.getD "" ≠ "") ∧
      (∃ instant, env.fromIsoFormat (eventText rawEvent "recorded_at") = some instant) ∧
      eventPayload env kind rawEvent actor findingRef (firstText rawEvent "rationale" "justification")
        (eventText rawEvent "recorded_at") = .ok (payload, validity) := by
  unfold submittedEvent at accepted
  have accepted := ite_bind_ok accepted
  obtain ⟨_, identified, accepted⟩ := bind_ok_iff.mp accepted
  replace accepted := gate_passed accepted
  have accepted := ite_bind_ok accepted
  replace accepted := gate_passed accepted
  rcases bind_ok_iff.mp accepted with ⟨_, named, accepted⟩
  rcases bind_ok_iff.mp accepted with ⟨recordedAt, recorded, accepted⟩
  replace recorded := gate_passed recorded
  cases recorded
  replace accepted := gate_passed accepted
  obtain ⟨_, bounded, accepted⟩ := bind_ok_iff.mp accepted
  obtain ⟨⟨built, asserted⟩, building, accepted⟩ := bind_ok_iff.mp accepted
  have accepted := ite_bind_ok accepted
  cases accepted
  refine ⟨⟨rfl, require_ok_iff.mp named⟩, require_ok_iff.mp identified, ?_, building⟩
  obtain ⟨instant, parsed, -⟩ := bind_ok_iff.mp bounded
  unfold parseRecordedAt at parsed
  split at parsed
  · cases parsed
  · next instant found => exact ⟨instant, found⟩

theorem submittedEvent_ok {moment : Moment} {kind : EventKind} {rawEvent payload : Dict} {actor : LayerActor}
    {findingRef validity : String}
    (accepted : submittedEvent env moment kind rawEvent actor = .ok (findingRef, payload, validity)) :
    (kind.isBirth = true ∧ payload = (stampActorOnEvent env rawEvent actor).remove "layer_id") ∨
      payload.get "restatement" = .null := by
  obtain ⟨-, -, -, building⟩ := submittedEvent_payload accepted
  exact eventPayload_ok building

theorem submitEvent_ok {moment : Moment} {rawKind : String} {rawEvent : Dict} {actor : LayerActor}
    {layer next : Layer} {receipt : Receipt}
    (accepted : submitEvent env moment rawKind rawEvent actor layer = .ok (next, receipt)) :
    SubmitEffect env (submissions (.submitEvent moment rawKind rawEvent actor)) layer next := by
  unfold submitEvent at accepted
  rw [rethrow_ok_iff] at accepted
  replace accepted := gate_passed accepted
  obtain ⟨kind, known, accepted⟩ := bind_ok_iff.mp accepted
  obtain ⟨⟨findingRef, payload, validity⟩, submitted, accepted⟩ := bind_ok_iff.mp accepted
  have mutation := mutate_ok accepted
  replace mutation := gate_passed mutation
  have mutation := ite_bind_ok mutation
  obtain ⟨⟨appended, id⟩, appending, mutation⟩ := bind_ok_iff.mp mutation
  obtain ⟨⟨finalized, root⟩, finalizing, mutation⟩ := bind_ok_iff.mp mutation
  cases mutation
  obtain ⟨prepared, preparation, rfl⟩ := appendOne_ok appending
  obtain ⟨readable, -, same⟩ := prepareEvent_ok preparation
  obtain ⟨events, metadata⟩ := finalizeLayer_ok finalizing
  have unchanged : ∀ field ∈ signedMetadataFields, next.metadata.get field = layer.metadata.get field :=
    fun field member => metadata field (signed_not_stampKey member)
  simp only at events
  split at events
  · exact SubmitEffect.of_frame events unchanged
  · apply SubmitEffect.of_append events unchanged
    intro event member
    rw [List.mem_singleton.mp member]
    have attached : SameRestatement payload (resolveFingerprintFromLayer payload layer) :=
      sameRestatement_attachIdentity _ _
    rw [isRestatement_congr attached] at readable
    rcases submittedEvent_ok submitted with ⟨birth, rfl⟩ | plain
    · exact Submitted.of_stampActor (by simp [submissions, known, birth]) readable (attached.trans same)
    · have notRestating : isRestatement prepared = .ok false := by
        rw [isRestatement_congr (attached.trans same), isRestatement, plain]
        rfl
      exact ⟨⟨false, notRestating⟩, fun restating => by rw [notRestating] at restating; cases restating⟩

theorem appendMany_submitted {submitted : List (Dict × LayerActor)} {layer appended : Layer} {events : List Dict}
    {ids : List String} (accepted : appendMany env.hash layer events = .ok (appended, ids))
    (stamped : ∀ event ∈ events, ∃ body actor, (body, actor) ∈ submitted ∧
      SameRestatement (stampSourceOnEvent env actor body) event) :
    appended.metadata = layer.metadata ∧ ∃ added, appended.events = layer.events ++ added ∧
      ∀ event ∈ added, Submitted env submitted event := by
  obtain ⟨added, rfl, offers⟩ := appendMany_ok accepted
  refine ⟨rfl, added, rfl, fun event member => ?_⟩
  obtain ⟨offered, isOffered, id, preparation⟩ := offers event member
  obtain ⟨body, actor, known, same⟩ := stamped offered isOffered
  obtain ⟨readable, -, prepared⟩ := prepareEvent_ok preparation
  rw [isRestatement_congr same] at readable
  exact Submitted.of_stampSource known readable (same.trans prepared)

theorem appendQueue_ok_iff {items : List Json} {layer queued : Layer} {added : Nat} :
    appendQueue layer items = .ok (queued, added) ↔
      (items = [] ∨ (layer.needsReview ++ items).all hashableKey = true) ∧
        queued = { layer with needsReview := queueItems layer.needsReview items } ∧
        added = (queueItems layer.needsReview items).length - layer.needsReview.length := by
  unfold appendQueue
  rw [bind_ok_iff]
  constructor
  · rintro ⟨_, hashed, result⟩
    cases result
    exact ⟨require_ok_iff.mp hashed, rfl, rfl⟩
  · rintro ⟨hashed, rfl, rfl⟩
    exact ⟨(), require_ok_iff.mpr hashed, rfl⟩

theorem queueEvents_layer {items : List Json} {layer next : Layer} {receipt : Receipt}
    (accepted : queueEvents layer items = .ok (next, receipt)) :
    next = { layer with needsReview := queueItems layer.needsReview items } := by
  obtain ⟨⟨queued, added⟩, queueing, result⟩ := bind_ok_iff.mp accepted
  cases result
  exact (appendQueue_ok_iff.mp queueing).2.1

theorem submitAtomic_layer {moment : Moment} {events : List Dict} {items : List Json} {layer next : Layer}
    {receipt : Receipt} (accepted : submitAtomic env moment events items layer = .ok (next, receipt)) :
    ∃ appended ids root, appendMany env.hash layer events = .ok (appended, ids) ∧
      finalizeLayer env moment "unknown"
        { appended with needsReview := queueItems appended.needsReview items } = .ok (next, root) := by
  unfold submitAtomic at accepted
  obtain ⟨⟨appended, ids⟩, appending, accepted⟩ := bind_ok_iff.mp accepted
  obtain ⟨⟨queued, count⟩, queueing, accepted⟩ := bind_ok_iff.mp accepted
  obtain ⟨⟨finalized, root⟩, finalizing, accepted⟩ := bind_ok_iff.mp accepted
  cases accepted
  obtain ⟨-, rfl, -⟩ := appendQueue_ok_iff.mp queueing
  exact ⟨appended, ids, root, appending, finalizing⟩

theorem submitAtomic_ok {submitted : List (Dict × LayerActor)} {moment : Moment} {events : List Dict}
    {items : List Json} {layer next : Layer} {receipt : Receipt}
    (accepted : submitAtomic env moment events items layer = .ok (next, receipt))
    (stamped : ∀ event ∈ events, ∃ body actor, (body, actor) ∈ submitted ∧
      SameRestatement (stampSourceOnEvent env actor body) event) : SubmitEffect env submitted layer next := by
  obtain ⟨appended, ids, root, appending, finalizing⟩ := submitAtomic_layer accepted
  obtain ⟨kept, added, grown, all⟩ := appendMany_submitted appending stamped
  obtain ⟨finalEvents, metadata⟩ := finalizeLayer_ok finalizing
  refine SubmitEffect.of_append (finalEvents.trans grown) (fun field member => ?_) all
  rw [metadata field (signed_not_stampKey member), ← kept]

theorem queueEvents_ok {submitted : List (Dict × LayerActor)} {items : List Json} {layer next : Layer}
    {receipt : Receipt} (accepted : queueEvents layer items = .ok (next, receipt)) :
    SubmitEffect env submitted layer next := by
  rw [queueEvents_layer accepted]
  exact SubmitEffect.of_frame rfl fun _ _ => rfl

theorem submitBatch_ok {moment : Moment} {layerId : String} {body : BatchSubmitRequest} {actor : LayerActor}
    {layer next : Layer} {receipt : Receipt}
    (accepted : submitBatch env moment layerId body actor layer = .ok (next, receipt)) :
    SubmitEffect env (submissions (.submitBatch moment layerId body actor)) layer next := by
  unfold submitBatch at accepted
  rw [rethrow_ok_iff] at accepted
  replace accepted := gate_passed accepted
  replace accepted := gate_passed accepted
  simp only at accepted
  split at accepted
  · cases accepted
    exact SubmitEffect.of_frame rfl fun _ _ => rfl
  · exact queueEvents_ok (mutate_ok accepted)
  · apply submitAtomic_ok (mutate_ok accepted)
    intro event member
    obtain ⟨raw, submitted, rfl⟩ := List.mem_map.mp member
    refine ⟨raw, actor, ?_, sameRestatement_stampFingerprintAlgo _⟩
    exact List.mem_map.mpr ⟨raw, submitted, rfl⟩

theorem cmdSubmitEvents_ok {layerId : String} {events : List Json} {actor : LayerActor} {layer next : Layer}
    {receipt : Receipt} (accepted : cmdSubmitEvents env layerId events actor layer = .ok (next, receipt)) :
    SubmitEffect env (submissions (.cmdSubmitEvents layerId events actor)) layer next := by
  unfold cmdSubmitEvents at accepted
  simp only at accepted
  split at accepted
  · cases accepted
    exact SubmitEffect.of_frame rfl fun _ _ => rfl
  · obtain ⟨⟨appended, ids⟩, appending, mutation⟩ := bind_ok_iff.mp (mutate_ok accepted)
    cases mutation
    have stamped : ∀ event ∈ events.filterMap (fun
        | .obj event => some (stampSourceOnEvent env actor event)
        | _ => none), ∃ body person, (body, person) ∈ submissions (.cmdSubmitEvents layerId events actor) ∧
        SameRestatement (stampSourceOnEvent env person body) event := by
      intro event member
      obtain ⟨entry, submitted, stamped⟩ := List.mem_filterMap.mp member
      cases entry with
      | obj raw =>
        cases stamped
        exact ⟨raw, actor, List.mem_filterMap.mpr ⟨Json.obj raw, submitted, rfl⟩, SameRestatement.refl _⟩
      | _ => cases stamped
    obtain ⟨kept, added, grown, all⟩ := appendMany_submitted appending stamped
    exact SubmitEffect.of_append grown (fun field _ => by rw [kept]) all

theorem stampEventIdentities_ok {submitted : List (Dict × LayerActor)} {moment : Moment} {layerId : String}
    {fingerprints : List (String × String)} {layer next : Layer} {receipt : Receipt × Nat}
    (accepted : stampEventIdentities env moment layerId fingerprints layer = .ok (next, receipt)) :
    SubmitEffect env submitted layer next := by
  unfold stampEventIdentities asLedgerError at accepted
  rw [rethrow_ok_iff] at accepted
  obtain ⟨⟨finalized, root⟩, finalizing, mutation⟩ := bind_ok_iff.mp (mutate_ok accepted)
  cases mutation
  obtain ⟨events, metadata⟩ := finalizeLayer_ok finalizing
  refine ⟨fun field member => metadata field (signed_not_stampKey member), next.events, [], by simp, ?_, by simp⟩
  rw [events, List.map_map, List.forall₂_map_right_iff]
  exact List.forall₂_same.mpr fun event _ => sameRestatement_attachIdentity _ event

theorem sign_ok {submitted : List (Dict × LayerActor)} {moment : Moment} {layerId : String} {layer next : Layer}
    {receipt : Receipt} (accepted : sign env moment layerId layer = .ok (next, receipt)) :
    SubmitEffect env submitted layer next := by
  unfold sign asLedgerError at accepted
  rw [rethrow_ok_iff] at accepted
  obtain ⟨⟨finalized, root⟩, finalizing, mutation⟩ := bind_ok_iff.mp (mutate_ok accepted)
  cases mutation
  obtain ⟨events, metadata⟩ := finalizeLayer_ok finalizing
  exact SubmitEffect.of_frame events fun field member => metadata field (signed_not_stampKey member)

theorem signLayer_ok {moment : Moment} {signers : Signers} {credentials : Option SigningConfig} {layer signed : Layer}
    {attempt : SignAttempt} (accepted : signLayer env moment signers credentials layer = .ok (signed, attempt)) :
    signed.events = layer.events ∧ ∀ key, key ∉ stampKeys → signed.metadata.get key = layer.metadata.get key := by
  unfold signLayer at accepted
  obtain ⟨⟨stamped, dropped⟩, stamp, accepted⟩ := bind_ok_iff.mp accepted
  replace accepted := gate_passed accepted
  cases accepted
  exact signed_frame stamp

theorem signLayerEndpoint_ok {submitted : List (Dict × LayerActor)} {moment : Moment} {layerId : String} {rekor : Bool}
    {layer next : Layer} {attempt : SignAttempt}
    (accepted : signLayerEndpoint env moment layerId rekor layer = .ok (next, attempt)) :
    SubmitEffect env submitted layer next := by
  obtain ⟨events, metadata⟩ := signLayer_ok (gate_passed (mutate_ok (rethrow_ok_iff.mp accepted)))
  exact SubmitEffect.of_frame events fun field member => metadata field (signed_not_stampKey member)

theorem resolveReviewItem_ok {layer closed : Layer} {itemKey : List Json} {status : String} {note : Option String}
    (accepted : resolveReviewItem layer itemKey status note = .ok (some closed)) :
    closed.metadata = layer.metadata ∧ closed.events = layer.events := by
  unfold resolveReviewItem at accepted
  replace accepted := gate_passed accepted
  replace accepted := gate_passed accepted
  split at accepted
  · replace accepted := gate_passed accepted
    cases accepted
    exact ⟨rfl, rfl⟩
  · cases accepted

theorem resolve_ok {submitted : List (Dict × LayerActor)} {moment : Moment} {layerId : String} {key : Option Json}
    {decision note : String} {layer next : Layer}
    (accepted : resolve env moment layerId key decision note layer = .ok next) :
    SubmitEffect env submitted layer next := by
  unfold resolve at accepted
  replace accepted := gate_passed accepted
  replace accepted := gate_passed accepted
  obtain ⟨itemKey, -, accepted⟩ := bind_ok_iff.mp accepted
  obtain ⟨⟨resolved, changed⟩, mutation, accepted⟩ := bind_ok_iff.mp accepted
  replace accepted := gate_passed accepted
  cases accepted
  rw [rethrow_ok_iff] at mutation
  obtain ⟨answer, resolving, mutation⟩ := bind_ok_iff.mp (mutate_ok mutation)
  cases answer with
  | none =>
    cases mutation
    exact SubmitEffect.of_frame rfl fun _ _ => rfl
  | some closed =>
    cases mutation
    obtain ⟨metadata, events⟩ := resolveReviewItem_ok resolving
    exact SubmitEffect.of_frame events fun field _ => by rw [metadata]

theorem map_fst_ok {α : Type} {outcome : Outcome (Layer × α)} {next : Layer}
    (accepted : Prod.fst <$> outcome = .ok next) : ∃ rest, outcome = .ok (next, rest) := by
  cases outcome with
  | error failure => cases accepted
  | ok result =>
    cases accepted
    exact ⟨result.2, rfl⟩

def OtherDoor : Call → Prop
  | .restate .. | .patch .. => False
  | _ => True

/-- Everything an accepted call can do to the log and to the signed fields. -/
theorem step_cases {layer next : Layer} {call : Call} (accepted : step env layer call = .ok next) :
    (∃ moment layerId block rationale actor recordedAt target event,
      call = .restate moment layerId block rationale actor recordedAt ∧
      RestateEffect env block actor recordedAt target event layer next) ∨
    (∃ moment layerId updates, call = .patch moment layerId updates ∧ PatchEffect updates layer next) ∨
    (OtherDoor call ∧ SubmitEffect env (submissions call) layer next) := by
  cases call with
  | restate moment layerId block rationale actor recordedAt =>
    obtain ⟨receipt, accepted⟩ := map_fst_ok accepted
    obtain ⟨target, event, effect⟩ := applyRestatement_ok accepted
    exact Or.inl ⟨moment, layerId, block, rationale, actor, recordedAt, target, event, rfl, effect⟩
  | patch moment layerId updates =>
    obtain ⟨receipt, accepted⟩ := map_fst_ok accepted
    exact Or.inr (Or.inl ⟨moment, layerId, updates, rfl, patchMetadata_ok accepted⟩)
  | submitEvent moment kind event actor =>
    obtain ⟨receipt, accepted⟩ := map_fst_ok accepted
    exact Or.inr (Or.inr ⟨trivial, submitEvent_ok accepted⟩)
  | submitBatch moment layerId body actor =>
    obtain ⟨receipt, accepted⟩ := map_fst_ok accepted
    exact Or.inr (Or.inr ⟨trivial, submitBatch_ok accepted⟩)
  | cmdSubmitEvents layerId events actor =>
    obtain ⟨receipt, accepted⟩ := map_fst_ok accepted
    exact Or.inr (Or.inr ⟨trivial, cmdSubmitEvents_ok accepted⟩)
  | cmdSubmitQueue layerId sourceRef queue actor =>
    obtain ⟨receipt, accepted⟩ := map_fst_ok accepted
    unfold cmdSubmitQueue at accepted
    simp only at accepted
    split at accepted
    · cases accepted
      exact Or.inr (Or.inr ⟨trivial, SubmitEffect.of_frame rfl fun _ _ => rfl⟩)
    · exact Or.inr (Or.inr ⟨trivial, queueEvents_ok (mutate_ok accepted)⟩)
  | stampIdentities moment layerId fingerprints =>
    obtain ⟨receipt, accepted⟩ := map_fst_ok accepted
    exact Or.inr (Or.inr ⟨trivial, stampEventIdentities_ok accepted⟩)
  | sign moment layerId =>
    obtain ⟨receipt, accepted⟩ := map_fst_ok accepted
    exact Or.inr (Or.inr ⟨trivial, sign_ok accepted⟩)
  | signEndpoint moment layerId rekor =>
    obtain ⟨attempt, accepted⟩ := map_fst_ok accepted
    exact Or.inr (Or.inr ⟨trivial, signLayerEndpoint_ok accepted⟩)
  | resolve moment layerId key decision note => exact Or.inr (Or.inr ⟨trivial, resolve_ok accepted⟩)

theorem step_stores {layer next : Layer} {call : Call} (accepted : step env layer call = .ok next) :
    next = layer ∨ ∃ (α : Type) (layerId : String) (mutator : Layer → Outcome (Layer × α)) (value : α),
      mutate env layerId mutator layer = .ok (next, value) := by
  cases call with
  | restate moment layerId block rationale actor recordedAt =>
    obtain ⟨receipt, accepted⟩ := map_fst_ok accepted
    obtain ⟨_, -, accepted⟩ := bind_ok_iff.mp accepted
    exact Or.inr ⟨_, _, _, _, accepted⟩
  | patch moment layerId updates =>
    obtain ⟨receipt, accepted⟩ := map_fst_ok accepted
    exact Or.inr ⟨_, _, _, _, rethrow_ok_iff.mp accepted⟩
  | submitEvent moment kind event actor =>
    obtain ⟨receipt, accepted⟩ := map_fst_ok accepted
    replace accepted := gate_passed (rethrow_ok_iff.mp accepted)
    obtain ⟨_, -, accepted⟩ := bind_ok_iff.mp accepted
    obtain ⟨_, -, accepted⟩ := bind_ok_iff.mp accepted
    exact Or.inr ⟨_, _, _, _, accepted⟩
  | submitBatch moment layerId body actor =>
    obtain ⟨receipt, accepted⟩ := map_fst_ok accepted
    replace accepted := gate_passed (rethrow_ok_iff.mp accepted)
    replace accepted := gate_passed accepted
    simp only at accepted
    split at accepted
    · cases accepted
      exact Or.inl rfl
    · exact Or.inr ⟨_, _, _, _, accepted⟩
    · exact Or.inr ⟨_, _, _, _, accepted⟩
  | cmdSubmitEvents layerId events actor =>
    obtain ⟨receipt, accepted⟩ := map_fst_ok accepted
    unfold cmdSubmitEvents at accepted
    simp only at accepted
    split at accepted
    · cases accepted
      exact Or.inl rfl
    · exact Or.inr ⟨_, _, _, _, accepted⟩
  | cmdSubmitQueue layerId sourceRef queue actor =>
    obtain ⟨receipt, accepted⟩ := map_fst_ok accepted
    unfold cmdSubmitQueue at accepted
    simp only at accepted
    split at accepted
    · cases accepted
      exact Or.inl rfl
    · exact Or.inr ⟨_, _, _, _, accepted⟩
  | stampIdentities moment layerId fingerprints =>
    obtain ⟨receipt, accepted⟩ := map_fst_ok accepted
    exact Or.inr ⟨_, _, _, _, rethrow_ok_iff.mp accepted⟩
  | sign moment layerId =>
    obtain ⟨receipt, accepted⟩ := map_fst_ok accepted
    exact Or.inr ⟨_, _, _, _, rethrow_ok_iff.mp accepted⟩
  | signEndpoint moment layerId rekor =>
    obtain ⟨attempt, accepted⟩ := map_fst_ok accepted
    exact Or.inr ⟨_, _, _, _, rethrow_ok_iff.mp accepted⟩
  | resolve moment layerId key decision note =>
    replace accepted := gate_passed accepted
    replace accepted := gate_passed accepted
    obtain ⟨_, -, accepted⟩ := bind_ok_iff.mp accepted
    obtain ⟨⟨resolved, changed⟩, mutation, accepted⟩ := bind_ok_iff.mp accepted
    replace accepted := gate_passed accepted
    cases accepted
    exact Or.inr ⟨_, _, _, _, rethrow_ok_iff.mp mutation⟩

theorem step_valid {layer next : Layer} {call : Call} (valid : env.contracts.validateLayer layer = true)
    (accepted : step env layer call = .ok next) : env.contracts.validateLayer next = true := by
  rcases step_stores accepted with rfl | ⟨_, layerId, mutator, value, stored⟩
  · exact valid
  · exact mutate_valid stored

theorem initializeLayer_ok {layerId : String} {existing : Option Layer} {shell start : Layer}
    (accepted : initializeLayer env layerId existing shell = .ok start) :
    start.events = [] ∧ env.contracts.validateLayer start = true := by
  obtain ⟨_, valid, accepted⟩ := bind_ok_iff.mp (rethrow_ok_iff.mp accepted)
  obtain ⟨_, empty, accepted⟩ := bind_ok_iff.mp accepted
  replace accepted := gate_passed accepted
  cases accepted
  exact ⟨(require_ok_iff.mp empty).1, require_ok_iff.mp valid⟩

theorem run_valid {layer : Layer} (valid : env.contracts.validateLayer layer = true) (calls : List Call) :
    env.contracts.validateLayer (run (step env) layer calls) = true :=
  run_preserves (fun _ _ _ held accepted => step_valid held accepted) valid calls

theorem reachable_valid {layer : Layer} (reachable : Reachable env layer) :
    env.contracts.validateLayer layer = true := by
  obtain ⟨layerId, shell, start, calls, initialized, rfl⟩ := reachable
  exact run_valid (initializeLayer_ok initialized).2 calls

end LedgerProof
