import TraustLedger.Proofs.AppendOnly
import TraustLedger.Proofs.ReferenceEnv
import TraustLedger.Disposition
import TraustLedger.Library.StableSort

namespace LedgerProof

open Hashing Python Runs Sha256 StableSort LedgerModel

variable {env : Env}

theorem severityOverride_snoc (finding : Dict) (evts : List Dated) {event : Dated} (generatedAt : String)
    (speaking : speaks event.2.severity = true) (human : eventClass event.2 = .human) :
    (mergeDisposition finding (evts ++ [event]) generatedAt).severityOverride = some (overrideOf event.2) := by
  simp [mergeDisposition, speaking, human]

theorem validity_snoc (finding : Dict) (evts : List Dated) {event : Dated} (generatedAt : String)
    (speaking : speaks event.2.validity = true) (human : eventClass event.2 = .human)
    (static : ∀ held ∈ evts, eventClass held.2 ≠ .execution) :
    (mergeDisposition finding (evts ++ [event]) generatedAt).validity = optionalText event.2.validity := by
  have none : ((evts ++ [event]).filter fun held => speaks held.2.validity).filter
      (fun held => eventClass held.2 == .execution) = [] := by
    rw [List.filter_eq_nil_iff]
    intro held member
    rcases List.mem_append.mp (List.mem_of_mem_filter member) with old | new
    · simpa using static held old
    · simp [List.mem_singleton.mp new, human]
  simp only [mergeDisposition, none, executedValidity, List.filter_nil, List.getLast?_nil]
  simp [staticValidity, speaking, human]

def submittedRef (rawEvent : Dict) : String := firstText rawEvent "finding_ref" "finding_fingerprint"

def submittedAt (rawEvent : Dict) : String := eventText rawEvent "recorded_at"

def submittedLevel (rawEvent : Dict) : String := eventText rawEvent "severity"

def submittedValidity (rawEvent : Dict) : Option String :=
  match resolveDecision rawEvent with
  | .ok decision => some (validityForDecision decision)
  | .error _ => none

/-- The id a submission comes under: the day, the finding, and the level, or the person and the verdict. -/
def decisionId (H : HashFunction) (kind : EventKind) (rawEvent : Dict) (actor : LayerActor) : String :=
  match kind with
  | .severity => computeEventId H
      (.str (interactiveRef (submittedAt rawEvent) ("severity:" ++ submittedLevel rawEvent)))
      (.str (submittedRef rawEvent)) .null .null
  | _ => computeEventId H (.str (interactiveRef (submittedAt rawEvent) (actor.identity.getD "")))
      (.str (submittedRef rawEvent)) (optionalText (submittedValidity rawEvent)) .null

def AsSubmitted (kind : EventKind) (rawEvent : Dict) (validity severity : Option String) : Prop :=
  (kind = .severity → severity = some (submittedLevel rawEvent) ∧ submittedLevel rawEvent ≠ "") ∧
    (kind = .countersign → validity = submittedValidity rawEvent ∧ speaks validity = true)

structure BuiltFrom (H : HashFunction) (kind : EventKind) (rawEvent : Dict) (actor : LayerActor)
    (built : LayerEvent) : Prop where
  id : built.eventId = decisionId H kind rawEvent actor
  computed : computeEventId H (.str built.sourceRef) (.str built.findingRef) (optionalText built.validity) .null =
    built.eventId
  findingRef : built.findingRef = submittedRef rawEvent
  recordedAt : built.recordedAt = submittedAt rawEvent
  actor : built.actor = actor
  content : AsSubmitted kind rawEvent built.validity built.severity

theorem eventPayload_built {kind : EventKind} {rawEvent payload : Dict} {actor : LayerActor}
    {rationale validity : String} (lane : kind = .countersign ∨ kind = .severity)
    (accepted : eventPayload env kind rawEvent actor (submittedRef rawEvent) rationale (submittedAt rawEvent) =
      .ok (payload, validity)) :
    ∃ built, env.contracts.eventToDict built = some payload ∧ BuiltFrom env.hash kind rawEvent actor built := by
  rcases lane with rfl | rfl
  · obtain ⟨decision, resolved, accepted⟩ := bind_ok_iff.mp accepted
    obtain ⟨built, building, accepted⟩ := bind_ok_iff.mp accepted
    obtain ⟨_, asserted, accepted⟩ := bind_ok_iff.mp accepted
    obtain ⟨dumped, dumping, accepted⟩ := bind_ok_iff.mp accepted
    cases accepted
    replace building := gate_passed building
    cases building
    have verdict : submittedValidity rawEvent = some (validityForDecision decision) := by
      simp [submittedValidity, resolved]
    refine ⟨_, dumpEvent_ok dumping, ?_, rfl, rfl, rfl, rfl, ?_⟩
    · simp [decisionId, verdict, optionalText]
    · refine ⟨by simp, fun _ => ⟨verdict.symm, ?_⟩⟩
      simpa [speaks] using require_ok_iff.mp asserted
  · obtain ⟨_, leveled, accepted⟩ := bind_ok_iff.mp accepted
    obtain ⟨dumped, dumping, accepted⟩ := bind_ok_iff.mp accepted
    cases accepted
    refine ⟨_, dumpEvent_ok dumping, rfl, rfl, rfl, rfl, rfl, ?_⟩
    exact ⟨fun _ => ⟨rfl, require_ok_iff.mp leveled⟩, by simp⟩

def eventsOf (layer : Layer) (findingRef : String) : List Dict :=
  layer.events.filter fun event => event.get "finding_ref" = .str findingRef

/-- Every stored event of the finding was recorded, at an instant that can be read, before the submission. -/
def Latest (env : Env) (layer : Layer) (rawEvent : Dict) : Prop :=
  ∀ event ∈ eventsOf layer (submittedRef rawEvent), ∃ parsed instant, env.contracts.parseEvent event = some parsed ∧
    env.fromIsoFormat parsed.recordedAt = some instant ∧
    ∀ submitted, env.fromIsoFormat (submittedAt rawEvent) = some submitted → instant < submitted

/-- The decision stands in the log, and the disposition of its finding is the one it asks for. -/
structure TakesEffect (env : Env) (kind : EventKind) (rawEvent : Dict) (actor : LayerActor) (finding : Dict)
    (generatedAt : String) (next : Layer) : Prop where
  stored : ∃ event ∈ eventsOf next (submittedRef rawEvent), ∃ parsed, env.contracts.parseEvent event = some parsed ∧
    parsed.actor = actor ∧ parsed.recordedAt = submittedAt rawEvent ∧
    AsSubmitted kind rawEvent parsed.validity parsed.severity
  derived : ∃ disposition, deriveDisposition env.contracts env.fromIsoFormat finding
      (eventsOf next (submittedRef rawEvent)) generatedAt = .ok disposition ∧
    (kind = .severity → ∃ override, disposition.severityOverride = some override ∧
      override.severity = submittedLevel rawEvent ∧ override.setBy = actor.identity.getD "") ∧
    (kind = .countersign → (∀ event ∈ eventsOf next (submittedRef rawEvent), ∀ parsed,
        env.contracts.parseEvent event = some parsed → eventClass parsed ≠ .execution) →
      disposition.validity = optionalText (submittedValidity rawEvent))

theorem eventClass_human {parsed : ParsedEvent} (grade : parsed.evidenceGrade = none)
    (human : parsed.actor.kind = "human") : eventClass parsed = .human := by
  simp [eventClass, grade, human]

theorem prepared_lookup {built : LayerEvent} {payload prepared : Dict} {layer : Layer} {id : String}
    (dump : env.contracts.eventToDict built = some payload)
    (computed : computeEventId env.hash (.str built.sourceRef) (.str built.findingRef)
      (optionalText built.validity) .null = built.eventId)
    (preparation : prepareEvent env.hash (resolveFingerprintFromLayer payload layer) = .ok (prepared, id)) :
    id = built.eventId ∧ ∀ key, key ≠ "fingerprint" → key ≠ "fingerprint_algo" →
      prepared.lookup key = payload.lookup key := by
  have identified : Identified payload (resolveFingerprintFromLayer payload layer) := identified_attachIdentity _ _
  obtain ⟨-, canonical, -⟩ := prepareEvent_ok preparation
  have sameId : canonicalId env.hash (resolveFingerprintFromLayer payload layer) = canonicalId env.hash payload := by
    have read : ∀ key, key ≠ "fingerprint" → key ≠ "fingerprint_algo" →
        (resolveFingerprintFromLayer payload layer).get key = payload.get key := by
      intro key notPrint notAlgo
      rw [Dict.get, Dict.get, identified.frame key notPrint notAlgo]
    unfold canonicalId
    rw [read _ (by decide) (by decide), read _ (by decide) (by decide), Dict.getD, Dict.getD,
      identified.frame _ (by decide) (by decide)]
  rw [sameId, canonicalId_dump dump, computed] at canonical
  cases canonical
  refine ⟨rfl, fun key notPrint notAlgo => ?_⟩
  rw [prepareEvent_lookup preparation notAlgo, identified.frame key notPrint notAlgo]
  split
  · next isId =>
    subst isId
    have held := env.contracts.event_id _ _ dump
    obtain ⟨value, found⟩ := (Dict.has_iff_lookup payload "event_id").mp
      (@Dict.has_of_get_ne_null payload "event_id" (by simp [held]))
    rw [Dict.get_eq_of_lookup found] at held
    rw [found, held]
  · rfl

theorem submitEvent_human {moment : Moment} {rawKind : String} {kind : EventKind} {rawEvent : Dict}
    {actor : LayerActor} {layer next : Layer} {receipt : Receipt} (known : parseEventKind rawKind = .ok kind)
    (lane : kind = .countersign ∨ kind = .severity)
    (accepted : submitEvent env moment rawKind rawEvent actor layer = .ok (next, receipt)) :
    actor.identity.getD "" ≠ "" ∧ (∃ instant, env.fromIsoFormat (submittedAt rawEvent) = some instant) ∧
      ∃ built prepared payload, BuiltFrom env.hash kind rawEvent actor built ∧
        env.contracts.eventToDict built = some payload ∧
        (∀ key, key ≠ "fingerprint" → key ≠ "fingerprint_algo" → prepared.lookup key = payload.lookup key) ∧
        env.contracts.validateLayer next = true ∧
        submittedRef rawEvent ≠ "" ∧
        (∃ id, prepareEvent env.hash (resolveFingerprintFromLayer payload layer) = .ok (prepared, id)) ∧
        next.events = if holdsId layer.events (decisionId env.hash kind rawEvent actor) then layer.events
          else layer.events ++ [prepared] := by
  have accepted := gate_passed (rethrow_ok_iff.mp accepted)
  obtain ⟨parsed, found, accepted⟩ := bind_ok_iff.mp accepted
  rw [known] at found
  cases found
  obtain ⟨⟨findingRef, payload, validity⟩, submitted, accepted⟩ := bind_ok_iff.mp accepted
  rcases submittedEvent_payload submitted with ⟨⟨rfl, referred⟩, identity, instant, building⟩
  obtain ⟨built, dump, origin⟩ := eventPayload_built lane building
  have mutation := ite_bind_ok (gate_passed (mutate_ok accepted))
  obtain ⟨⟨draft, id⟩, appending, mutation⟩ := bind_ok_iff.mp mutation
  obtain ⟨⟨finalized, root⟩, finalizing, mutation⟩ := bind_ok_iff.mp mutation
  cases mutation
  obtain ⟨prepared, preparation, rfl⟩ := appendOne_ok appending
  rcases prepared_lookup dump origin.computed preparation with ⟨rfl, same⟩
  have named : actor.identity.getD "" ≠ "" := by
    rcases identity with birth | named
    · rcases lane with rfl | rfl <;> cases birth
    · exact named
  refine ⟨named, instant, built, prepared, payload, origin, dump, same, mutate_valid accepted, referred,
    ⟨_, preparation⟩, ?_⟩
  rw [(finalizeLayer_ok finalizing).1, ← origin.id]

section Appended

variable {kind : EventKind} {rawEvent payload prepared : Dict} {actor : LayerActor} {built : LayerEvent}
  {layer next : Layer} (origin : BuiltFrom env.hash kind rawEvent actor built)
  (dump : env.contracts.eventToDict built = some payload)
  (same : ∀ key, key ≠ "fingerprint" → key ≠ "fingerprint_algo" → prepared.lookup key = payload.lookup key)
  (events : next.events = layer.events ++ [prepared])

include origin dump same events

theorem eventsOf_appended : eventsOf next (submittedRef rawEvent) =
    eventsOf layer (submittedRef rawEvent) ++ [prepared] := by
  have named : prepared.get "finding_ref" = .str (submittedRef rawEvent) := by
    rw [← origin.findingRef, ← env.contracts.event_finding_ref _ _ dump, Dict.get, Dict.get,
      same _ (by decide) (by decide)]
  rw [eventsOf, events, List.filter_append]
  simp [eventsOf, named]

theorem derived_appended (finding : Dict) (generatedAt : String) {parsed : ParsedEvent} {submitted : Int}
    (read : env.contracts.parseEvent prepared = some parsed)
    (instant : env.fromIsoFormat parsed.recordedAt = some submitted)
    (dateHeld : parsed.recordedAt = submittedAt rawEvent) (latest : Latest env layer rawEvent) :
    ∃ evts, deriveDisposition env.contracts env.fromIsoFormat finding (eventsOf next (submittedRef rawEvent))
        generatedAt = .ok (mergeDisposition finding (evts ++ [(submitted, parsed)]) generatedAt) ∧
      ∀ held ∈ evts, ∃ event ∈ eventsOf layer (submittedRef rawEvent),
        env.contracts.parseEvent event = some held.2 := by
  have coerced : ∀ event ∈ eventsOf layer (submittedRef rawEvent), ∃ value, coerce env.contracts event = .ok value ∧
      (∃ instant, env.fromIsoFormat value.recordedAt = some instant ∧ instant < submitted) ∧
      ∃ event ∈ eventsOf layer (submittedRef rawEvent), env.contracts.parseEvent event = some value := by
    intro event member
    obtain ⟨value, instantOf, found, dated, earlier⟩ := latest event member
    refine ⟨value, by simp [coerce, found], ⟨instantOf, dated, earlier submitted (dateHeld ▸ instant)⟩, event, member,
      found⟩
  obtain ⟨values, mapped, known⟩ := mapM_ok coerced
  have keyed : ∀ value ∈ values, ∃ pair, dated env.fromIsoFormat value = .ok pair ∧ pair.1 < submitted ∧
      ∃ event ∈ eventsOf layer (submittedRef rawEvent), env.contracts.parseEvent event = some pair.2 := by
    intro value member
    obtain ⟨⟨instantOf, found, earlier⟩, source⟩ := known value member
    exact ⟨(instantOf, value), by simp [dated, eventDt, found, bind, Except.bind, pure, Except.pure], earlier, source⟩
  obtain ⟨pairs, paired, ordered⟩ := mapM_ok keyed
  have last : dated env.fromIsoFormat parsed = .ok (submitted, parsed) := by
    simp [dated, eventDt, instant, bind, Except.bind, pure, Except.pure]
  have read' : coerce env.contracts prepared = .ok parsed := by simp [coerce, read]
  refine ⟨pairs.insertionSort fun left right => left.1 ≤ right.1, ?_, fun held member => ?_⟩
  · rw [eventsOf_appended origin dump same events, deriveDisposition, mapM_snoc mapped read']
    simp only [bind, Except.bind]
    rw [mapM_snoc paired last]
    simp only [pure, Except.pure]
    rw [insertionSort_snoc fun pair member => (ordered pair member).1.le]
  · exact (ordered held ((List.mem_insertionSort _).mp member)).2

end Appended

theorem requireVerifiedHuman_kind {actor : LayerActor} {u : Unit} (human : requireVerifiedHuman actor = .ok u) :
    actor.kind = "human" := by
  obtain ⟨_, person, -⟩ := bind_ok_iff.mp human
  exact (require_ok_iff.mp person).1

/-- An accepted decision of a verified human, recorded after everything stored of its finding, takes effect exactly
    where the log does not hold its id. -/
theorem human_decision_iff (env : Env) (moment : Moment) (rawKind : String) (kind : EventKind) (rawEvent : Dict)
    (actor : LayerActor) (layer next : Layer) (receipt : Receipt) (finding : Dict) (generatedAt : String)
    (known : parseEventKind rawKind = .ok kind) (lane : kind = .countersign ∨ kind = .severity)
    (human : requireVerifiedHuman actor = .ok ())
    (accepted : submitEvent env moment rawKind rawEvent actor layer = .ok (next, receipt))
    (latest : Latest env layer rawEvent) :
    TakesEffect env kind rawEvent actor finding generatedAt next ↔
      holdsId layer.events (decisionId env.hash kind rawEvent actor) = false := by
  obtain ⟨identity, ⟨submitted, instant⟩, built, prepared, payload, origin, dump, same, valid, -, -, events⟩ :=
    submitEvent_human known lane accepted
  constructor
  · intro effect
    by_contra held
    rw [if_pos (by simpa using held)] at events
    obtain ⟨event, member, parsed, read, -, recorded, -⟩ := effect.stored
    rw [eventsOf, events, ← eventsOf] at member
    obtain ⟨value, instantOf, found, dated, earlier⟩ := latest event member
    rw [read] at found
    cases found
    rw [recorded, instant] at dated
    cases dated
    exact absurd (earlier _ instant) (lt_irrefl _)
  · intro fresh
    rw [if_neg (by simp [fresh])] at events
    have appended := eventsOf_appended origin dump same events
    obtain ⟨parsed, read, back⟩ := env.contracts.parse_dump built payload prepared next dump same
      (by rw [events]; simp) valid
    have recorded : parsed.recordedAt = submittedAt rawEvent := back.recordedAt.trans origin.recordedAt
    have whose : parsed.actor = actor := back.actor.trans origin.actor
    have content : AsSubmitted kind rawEvent parsed.validity parsed.severity := by
      rw [back.validity, back.severity]
      exact origin.content
    have humanClass : eventClass parsed = .human :=
      eventClass_human back.evidenceGrade (by rw [whose]; exact requireVerifiedHuman_kind human)
    obtain ⟨evts, derived, sources⟩ := derived_appended origin dump same events finding generatedAt read
      (recorded ▸ instant) recorded latest
    refine ⟨⟨prepared, by rw [appended]; simp, parsed, read, whose, recorded, content⟩, _, derived, ?_, ?_⟩
    · intro severity
      obtain ⟨level, present⟩ := content.1 severity
      refine ⟨overrideOf parsed, severityOverride_snoc _ _ _ (by simpa [level, speaks] using present) humanClass, ?_, ?_⟩
      · simp [overrideOf, level]
      · simp [overrideOf, whose, speaks, identity]
    · intro countersign static
      obtain ⟨verdict, speaking⟩ := content.2 countersign
      rw [validity_snoc _ _ _ speaking humanClass, verdict]
      intro held member
      obtain ⟨event, stored, found⟩ := sources held member
      exact static event (by rw [appended]; exact List.mem_append_left _ stored) held.2 found

def morning : String := "2026-03-04T08:00:00+00:00"

def noon : String := "2026-03-04T12:00:00+00:00"

def evening : String := "2026-03-04T18:00:00+00:00"

def clockEnv : Env := { referenceEnv with
  fromIsoFormat := fun text => [(sampleInstant, 1772600767000000), (morning, 1772611200000000),
    (noon, 1772625600000000), (evening, 1772647200000000)].lookup text }

def late : Moment := { unsigned with now := 1772647200000000, nowText := evening }

def decisionAt (decision recordedAt : String) : Dict :=
  Dict.ofList [("layer_id", .str "acme"), ("finding_ref", .str "FIND-1"), ("decision", .str decision),
    ("rationale", .str "checked by hand, once more"), ("recorded_at", .str recordedAt)]

def countersign (decision recordedAt : String) : Call :=
  .submitEvent late "countersign" (decisionAt decision recordedAt) verifiedAdmin

def recordedBefore (env : Env) (instant : Int) (event : Dict) : Bool :=
  match env.contracts.parseEvent event with
  | some parsed => match env.fromIsoFormat parsed.recordedAt with
    | some held => held < instant
    | none => false
  | none => false

theorem latest_of_all {layer : Layer} {rawEvent : Dict} {instant : Int}
    (read : env.fromIsoFormat (submittedAt rawEvent) = some instant)
    (earlier : (eventsOf layer (submittedRef rawEvent)).all (recordedBefore env instant) = true) :
    Latest env layer rawEvent := by
  intro event member
  have before := List.all_eq_true.mp earlier event member
  unfold recordedBefore at before
  split at before
  · next parsed found =>
    split at before
    · next held dated =>
      refine ⟨parsed, held, found, dated, fun submitted given => ?_⟩
      rw [read] at given
      cases given
      exact of_decide_eq_true before
    · cases before
  · cases before

theorem human_decision_morning : ∃ next receipt,
    submitEvent clockEnv late "countersign" (decisionAt "keep_open" morning) verifiedAdmin oneClaim =
      .ok (next, receipt) ∧
    TakesEffect clockEnv .countersign (decisionAt "keep_open" morning) verifiedAdmin [] evening next := by
  have accepted : (submitEvent clockEnv late "countersign" (decisionAt "keep_open" morning) verifiedAdmin
      oneClaim).isOk = true := by
    decide +kernel
  obtain ⟨⟨next, receipt⟩, accepted⟩ := exists_of_isOk accepted
  refine ⟨next, receipt, accepted, ?_⟩
  exact (human_decision_iff clockEnv late "countersign" .countersign _ verifiedAdmin oneClaim next receipt [] evening rfl
    (Or.inl rfl) rfl accepted (latest_of_all rfl rfl)).mpr (by decide +kernel)

/-- The verdict of the morning, reversed at noon, given again in the evening: accepted, and dropped as a duplicate
    of the morning's. -/
theorem reversal_dropped : ∃ layer, Reachable clockEnv layer ∧ ∃ next receipt,
    submitEvent clockEnv late "countersign" (decisionAt "keep_open" evening) verifiedAdmin layer =
      .ok (next, receipt) ∧
    requireVerifiedHuman verifiedAdmin = .ok () ∧ Latest clockEnv layer (decisionAt "keep_open" evening) ∧
    ¬ TakesEffect clockEnv .countersign (decisionAt "keep_open" evening) verifiedAdmin [] evening next := by
  refine ⟨run (step clockEnv) oneClaim [countersign "keep_open" morning, countersign "false_positive" noon],
    ⟨"acme", oneClaim, oneClaim, _, rfl, rfl⟩, ?_⟩
  have dropped : okAnd (submitEvent clockEnv late "countersign" (decisionAt "keep_open" evening) verifiedAdmin
      (run (step clockEnv) oneClaim [countersign "keep_open" morning, countersign "false_positive" noon]))
      (fun answer => (eventsOf answer.1 "FIND-1").all (recordedBefore clockEnv 1772647200000000)) = true ∧
      (eventsOf (run (step clockEnv) oneClaim [countersign "keep_open" morning, countersign "false_positive" noon])
        "FIND-1").all (recordedBefore clockEnv 1772647200000000) = true := by
    decide +kernel
  obtain ⟨dropped, before⟩ := dropped
  obtain ⟨⟨next, receipt⟩, accepted, earlier⟩ := okAnd_iff.mp dropped
  refine ⟨next, receipt, accepted, rfl, latest_of_all rfl before, ?_⟩
  intro effect
  obtain ⟨event, member, parsed, read, -, recorded, -⟩ := effect.stored
  have contradiction := List.all_eq_true.mp earlier event member
  unfold recordedBefore at contradiction
  rw [read] at contradiction
  simp only [recorded] at contradiction
  revert contradiction
  decide +kernel

end LedgerProof
