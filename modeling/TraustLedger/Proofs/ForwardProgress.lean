import TraustLedger.Proofs.ChainIntegrity
import TraustLedger.Proofs.EpochChecks
import TraustLedger.Proofs.RetiredValues
import TraustLedger.Proofs.WriterLog

namespace LedgerProof

open Hashing Python Runs Sha256 LedgerModel

variable {env : Env} {H : HashFunction} {layer next : Layer} {entry : Entry} {key : String} {value : Json}

def SubmitsOrdinary (call : Call) : Prop :=
  ∀ body actor, (body, actor) ∈ submissions call → isRestatement body ≠ .ok true

/-- No restatement of the log names the value as one the entry was moved from or to. -/
def Unretired (entry : Entry) (value : Json) (layer : Layer) : Prop :=
  ∃ retired, retiredValues layer.events entry.field entry.key = .ok retired ∧ Json.pyIn value retired = false

theorem pyIn_append_false {values more : List Json} :
    Json.pyIn value (values ++ more) = false ↔ Json.pyIn value values = false ∧ Json.pyIn value more = false := by
  rw [Json.pyIn, List.any_append, Bool.or_eq_false_iff]
  rfl

theorem Unretired.grow {kept added : List Dict} (free : Unretired entry value layer)
    (grown : next.events = kept ++ added) (same : List.Forall₂ SameRestatement layer.events kept)
    (readableMore : Readable added)
    (freeMore : Json.pyIn value ((chainOf added entry.field).flatMap (retiredBy entry.key)) = false) :
    Unretired entry value next := by
  rcases free with ⟨values, read, absent⟩
  have more := retiredValues_grow read same readableMore
  rw [← grown] at more
  exact ⟨_, more, pyIn_append_false.mpr ⟨absent, freeMore⟩⟩

theorem mem_retiredBy {block : Dict} {recorded : Json} (member : recorded ∈ retiredBy (some key) block) :
    entriesOf (block.get "before") key = some recorded ∨ entriesOf (block.get "after") key = some recorded := by
  have listed : ∀ {entries : Dict}, (recorded ∈ if Dict.has entries key then [Dict.get entries key] else []) →
      entries.lookup key = some recorded := by
    intro entries member
    split at member
    · next present =>
      rcases (Dict.has_iff_lookup _ _).mp present with ⟨held, found⟩
      rw [List.mem_singleton.mp member, Dict.get_eq_of_lookup found]
      exact found
    · cases member
  rcases List.mem_append.mp member with member | member
  · cases before : block.get "before" with
    | obj entries =>
      rw [before] at member
      exact Or.inl (listed member)
    | _ =>
      rw [before] at member
      cases member
  · cases after : block.get "after" with
    | obj entries =>
      rw [after] at member
      exact Or.inr (listed member)
    | _ =>
      rw [after] at member
      cases member

theorem entriesOf_given {after : Dict} {given : Json} (current : Json) (found : after.lookup key = some given)
    (real : given ≠ .null) : entriesOf (mergeDelta current (.obj after)) key = some given := by
  cases current with
  | obj fields =>
    rw [entriesOf_mergeDelta, Deltas.apply, deltaOf, found]
    simp [real]
  | _ => exact found

section Restated

variable {block : Dict} {actor : LayerActor} {recordedAt target : String} {event : Dict}
  (effect : RestateEffect env block actor recordedAt target event layer next)

include effect

theorem RestateEffect.held_before (same : entry.field = target) (keyed : entry.key = some key) {recorded : Json}
    (named : entriesOf (block.get "before") key = some recorded) (real : recorded ≠ .null) :
    ∃ now, heldAt layer entry = some now ∧ Json.pyEq now recorded = true := by
  rcases entriesOf_some named with ⟨before, isBefore, found⟩
  rw [heldAt, keyed, same, entryIn]
  cases held : layer.metadata.get target with
  | obj fields =>
    have fresh := effect.freshEntry before fields isBefore held key recorded found
    cases lookup : List.lookup key fields with
    | some now =>
      rw [Dict.get_eq_of_lookup lookup] at fresh
      exact ⟨now, lookup, fresh⟩
    | none =>
      rw [Dict.get, lookup] at fresh
      exact absurd (Json.pyEq_null_left fresh) real
  | _ =>
    have whole := Json.isObj_congr (effect.freshWhole (by rw [held]; rfl))
    rw [isBefore, held] at whole
    cases whole

theorem RestateEffect.held_after (same : entry.field = target) (keyed : entry.key = some key) {recorded : Json}
    (named : entriesOf (block.get "after") key = some recorded) (real : recorded ≠ .null) :
    heldAt next entry = some recorded := by
  rcases entriesOf_some named with ⟨after, isAfter, found⟩
  rw [effect.held_next, if_pos same, keyed, isAfter]
  exact entriesOf_given _ found real

theorem RestateEffect.keeps_unretired (keyed : entry.key = some key) (real : value ≠ .null)
    (before : Lost value (heldAt layer entry)) (after : Lost value (heldAt next entry))
    (free : Unretired entry value layer) : Unretired entry value next := by
  by_cases fresh : holdsId layer.events (restatementId env.hash block actor recordedAt) = false
  · apply free.grow (effect.appended_iff.mpr ⟨fresh, rfl⟩) (same_log _) effect.readable_event
    rw [effect.chainOf_event]
    split
    · next same =>
      rw [Bool.eq_false_iff, ne_eq, Json.pyIn_iff]
      intro found
      rcases found with ⟨recorded, member, equal⟩
      rw [List.flatMap_singleton, keyed] at member
      have filled : recorded ≠ .null := by
        intro gone
        rw [gone, Json.pyEq_null] at equal
        exact real (of_decide_eq_true equal)
      rcases mem_retiredBy member with named | named
      · rw [effect.recorded.before] at named
        rcases effect.held_before same keyed named filled with ⟨now, held, read⟩
        have differs := before now held
        rw [Json.pyEq_trans read (Json.pyEq_symm equal)] at differs
        cases differs
      · rw [effect.recorded.after] at named
        have differs := after recorded (effect.held_after same keyed named filled)
        rw [Json.pyEq_symm equal] at differs
        cases differs
    · rfl
  · have unchanged : next.events = layer.events := by
      rw [effect.events, if_pos (by simpa using fresh)]
    rw [Unretired, unchanged]
    exact free

end Restated

theorem PatchEffect.keeps_unretired {updates : Dict} (effect : PatchEffect updates layer next)
    (free : Unretired entry value layer) : Unretired entry value next := by
  rw [Unretired, effect.events]
  exact free

theorem SubmitEffect.keeps_unretired {offered : List (Dict × LayerActor)} (effect : SubmitEffect env offered layer next)
    (ordinary : ∀ body actor, (body, actor) ∈ offered → isRestatement body ≠ .ok true)
    (free : Unretired entry value layer) : Unretired entry value next := by
  rcases effect.events with ⟨kept, added, grown, same, submitted⟩
  apply free.grow grown same fun event member => (submitted event member).1
  rw [chainOf_plain]
  · rfl
  · intro event member restating
    rcases (submitted event member).2 restating with ⟨body, actor, offering, restates, -, -⟩
    exact ordinary body actor offering restates

theorem step_keeps_unretired {call : Call} (keyed : entry.key = some key) (real : value ≠ .null)
    (before : Lost value (heldAt layer entry)) (after : Lost value (heldAt next entry))
    (ordinary : SubmitsOrdinary call) (accepted : step env layer call = .ok next)
    (free : Unretired entry value layer) : Unretired entry value next := by
  rcases step_cases accepted with ⟨moment, layerId, block, rationale, actor, recordedAt, target, event, rfl, effect⟩ |
    ⟨moment, layerId, updates, rfl, effect⟩ | ⟨other, effect⟩
  · exact effect.keeps_unretired keyed real before after free
  · exact effect.keeps_unretired free
  · exact effect.keeps_unretired ordinary free

theorem run_unretired {start : Layer} {calls : List Call} (empty : start.events = []) (keyed : entry.key = some key)
    (real : value ≠ .null) (along : Along (step env) (fun _ call => SubmitsOrdinary call) start calls)
    (never : ∀ past ∈ visited (step env) start calls, Lost value (heldAt past entry)) :
    Unretired entry value (run (step env) start calls) := by
  apply run_invariant_within _ _ along never
  · intro s call t _ before after free ordinary accepted
    exact step_keeps_unretired keyed real before after ordinary accepted free
  · rw [Unretired, empty]
    exact ⟨[], rfl, rfl⟩

/-- A block that moves one entry of a map from the value it holds to another. -/
structure MovesEntry (block : Dict) (field key : String) (held given : Json) : Prop where
  target : block.get "target" = .str field
  before : block.get "before" = .obj [(key, held)]
  after : block.get "after" = .obj [(key, given)]

theorem MovesEntry.remove {block : Dict} {field : String} {held given : Json}
    (moves : MovesEntry block field key held given) : MovesEntry (block.remove "finding_ref") field key held given := by
  constructor
  · rw [Dict.get_remove, if_neg (by decide), moves.target]
  · rw [Dict.get_remove, if_neg (by decide), moves.before]
  · rw [Dict.get_remove, if_neg (by decide), moves.after]

/-- What makes a restatement well formed, whatever the layer holds: who gives it, its reason and its ticket. -/
structure WellFormed (env : Env) (moment : Moment) (block : Dict) (rationale : String) (actor : LayerActor)
    (recordedAt : String) : Prop where
  human : requireVerifiedHuman actor = .ok ()
  reason : requireRationaleLength rationale = .ok ()
  bounded : requireTimestampBounds env.fromIsoFormat moment.now recordedAt = .ok ()
  ticket : ticketed (ticketOf block) = true
  recordable : ∃ built event, buildRestatementEvent env.hash (block.remove "finding_ref") rationale actor recordedAt
    (restatedFindingRef block) = .ok built ∧ env.contracts.eventToDict built = some event

theorem pyEq_single {held given : Json} :
    Json.pyEq (.obj [(key, held)]) (.obj [(key, given)]) = Json.pyEq held given := by
  simp [Json.pyEq, Json.norm, Json.normFields]

section Gates

variable {block : Dict} {field : String} {held given : Json}

theorem requireRestatementAuthority_moves (moves : MovesEntry block field key held given) (mapped : field ∈ mapTargets)
    (ticket : ticketed (ticketOf block) = true) (moved : Json.pyEq held given = false) :
    requireRestatementAuthority block = .ok () := by
  have named : field ≠ "" := by
    rintro rfl
    revert mapped
    decide
  have present : block.has "after" = true := Dict.has_of_get_ne_null (by simp [moves.after])
  unfold requireRestatementAuthority
  simp [moves.target, moves.before, moves.after, Json.truthy, named, ticket, present, pyEq_single, moved, require,
    bind, Except.bind]

theorem restatementTarget_moves (moves : MovesEntry block field key held given) (mapped : field ∈ mapTargets) :
    restatementTarget block = .ok field := by
  have known : field ∈ restatementTargets := by
    revert mapped
    simp only [mapTargets, restatementTargets, signedMetadataFields, List.mem_cons, List.not_mem_nil, or_false]
    tauto
  simp [restatementTarget, moves.target, known]

theorem requireValidEpoch_stamped (stamped : Stamped H layer) : requireValidEpoch layer = .ok () := by
  unfold requireValidEpoch
  split
  · rfl
  · next filled =>
    have some : layer.events.length ≠ 0 := by simpa using filled
    have inside := stamped.inside some
    have real := get_ne_null_of_pyInt stamped.epoch
    simp only [bind, Except.bind, require, real, ne_eq, not_false_eq_true, if_true, toInt_of_pyInt stamped.epoch]
    rw [if_pos (by omega)]

theorem restatementGates_moves (moves : MovesEntry block field key held given) (stamped : Stamped H layer)
    {fields : Dict} (map : layer.metadata.get field = .obj fields) (found : fields.lookup key = some held)
    {retired : List Json} (read : retiredValues layer.events field (some key) = .ok retired)
    (free : Json.pyIn given retired = false) : restatementGates block field layer = .ok () := by
  have present : Dict.has fields key = true := (Dict.has_iff_lookup _ _).mpr ⟨held, found⟩
  have something : requireSomethingToRestate block (layer.metadata.get field) = .ok () := by
    simp [requireSomethingToRestate, moves.before, map, present, require]
  have fresh : requireFreshRestatement block (layer.metadata.get field) = .ok () := by
    simp [requireFreshRestatement, moves.before, map, Dict.items, Dict.get_eq_of_lookup found, require, Dict.get_cons]
  have monotonic : requireMonotonicRestatement block layer.events = .ok () := by
    simp [requireMonotonicRestatement, moves.target, moves.after, pyStr, Dict.items, Dict.get_cons, read, free,
      require, List.filterM, List.filterAuxM, bind, Except.bind, pure, Except.pure]
  simp [restatementGates, requireValidEpoch_stamped stamped, something, fresh, monotonic, bind, Except.bind]

end Gates

theorem isDestructiveChange_self (value : Json) : isDestructiveChange value value = false := by
  unfold isDestructiveChange
  split
  · rfl
  · split
    · rw [List.any_eq_false]
      intro item member
      rw [Dict.get_eq_of_lookup (Dict.mem_items.mp member), Json.pyEq_self]
      decide
    · rw [Json.pyEq_self]
      rfl

theorem requireRestatementsCoverMetadata_own {changed : Layer} {snapshot event : Dict} {target : String}
    (restates : isRestatement event = .ok true) (targeted : (restatementBlock event).get "target" = .str target)
    (moved : ∀ field, changed.metadata.get field = if field = target then
      mergeDelta (snapshot.get target) ((restatementBlock event).get "after") else snapshot.get field) :
    requireRestatementsCoverMetadata changed snapshot event = .ok () := by
  rcases isRestatement_true_iff.mp restates with ⟨block, source, held, -, -⟩
  have same : restatementBlock event = block := by simp [restatementBlock, held]
  rw [same] at targeted moved
  unfold requireRestatementsCoverMetadata
  rw [restates, held]
  simp only [orEmpty, bind, Except.bind]
  rw [forIn_passes]
  · rfl
  · intro field _
    by_cases own : field = target
    · subst own
      have stored := moved field
      rw [if_pos rfl] at stored
      simp [stored, targeted, require, pure, Except.pure]
    · rw [moved, if_neg own, isDestructiveChange_self]
      rfl

theorem prepareEvent_restatement {block event : Dict} {rationale recordedAt : String} {actor : LayerActor}
    {built : LayerEvent}
    (building : buildRestatementEvent env.hash (block.remove "finding_ref") rationale actor recordedAt
      (restatedFindingRef block) = .ok built) (dump : env.contracts.eventToDict built = some event) :
    ∃ prepared, prepareEvent env.hash event = .ok (prepared, restatementId env.hash block actor recordedAt) := by
  have dumped : dumpEvent env built = .ok event := by simp [dumpEvent, dump]
  rcases dump_restatement building dumped with ⟨recorded, canonical⟩
  rcases env.contracts.event_source _ _ dump with ⟨source, sourceHeld, -, -, actorHeld⟩
  rcases env.contracts.event_disposition _ _ dump with ⟨disposition, dispositionHeld, -, -, plain⟩
  have own : built.eventId = restatementId env.hash block actor recordedAt ∧ disposition = [] := by
    unfold buildRestatementEvent at building
    replace building := gate_passed building
    split at building
    · next ref found =>
      cases building
      exact ⟨by rw [restatementId, found], plain rfl rfl⟩
    · cases building
  have named := env.contracts.event_id _ _ dump
  rw [own.1] at named
  rw [own.2] at dispositionHeld
  refine ⟨_, prepareEvent_ok_iff.mpr ⟨⟨true, recorded.restates, Or.inr ?_⟩, canonical, Or.inr named, ?_, rfl⟩⟩
  · rw [dispositionHeld]
    rfl
  · rw [enforceIdentityRule_congr lookup_prepared]
    simp [enforceIdentityRule, dispositionHeld, sourceHeld, actorHeld, orEmpty, require, bind, Except.bind]

theorem restatementEvent_moves {moment : Moment} {block event : Dict} {rationale recordedAt field : String}
    {actor : LayerActor} {held given : Json} {built : LayerEvent}
    (configured : requireSigningConfigured moment.config = .ok ())
    (formed : WellFormed env moment block rationale actor recordedAt) (moves : MovesEntry block field key held given)
    (mapped : field ∈ mapTargets) (moved : Json.pyEq held given = false)
    (building : buildRestatementEvent env.hash (block.remove "finding_ref") rationale actor recordedAt
      (restatedFindingRef block) = .ok built) (dump : env.contracts.eventToDict built = some event) :
    restatementEvent env moment block rationale actor recordedAt = .ok (field, event) := by
  have authority := requireRestatementAuthority_moves moves mapped formed.ticket moved
  have target := restatementTarget_moves moves mapped
  have dumped : dumpEvent env built = .ok event := by simp [dumpEvent, dump]
  simp only [restatementEvent, configured, formed.human, formed.reason, formed.bounded, authority, target, building,
    dumped, bind, Except.bind, pure, Except.pure]

theorem appendRestatement_built {block event : Dict} {rationale recordedAt target : String} {actor : LayerActor}
    {built : LayerEvent} (targeted : block.get "target" = .str target)
    (building : buildRestatementEvent env.hash (block.remove "finding_ref") rationale actor recordedAt
      (restatedFindingRef block) = .ok built) (dump : env.contracts.eventToDict built = some event) :
    ∃ changed id, appendRestatement env.hash layer event target (block.get "after") = .ok (changed, id) := by
  rcases prepareEvent_restatement building dump with ⟨prepared, preparation⟩
  have dumped : dumpEvent env built = .ok event := by simp [dumpEvent, dump]
  have recorded := (dump_restatement building dumped).1
  have appending : ∃ grown, appendOne env.hash layer event =
      .ok ({ layer with events := grown }, restatementId env.hash block actor recordedAt) := by
    rw [appendOne, preparation]
    simp only [bind, Except.bind]
    split
    · exact ⟨layer.events, rfl⟩
    · exact ⟨_, rfl⟩
  rcases appending with ⟨grown, appending⟩
  have covered : requireRestatementsCoverMetadata
      { layer with
        events := grown
        metadata := assign layer.metadata target (mergeDelta (layer.metadata.get target) (block.get "after")) }
      layer.metadata event = .ok () := by
    apply requireRestatementsCoverMetadata_own recorded.restates (by rw [recorded.target, targeted])
    intro name
    rw [recorded.after]
    exact get_assign _ _ _ _
  exact ⟨_, _, bind_ok_iff.mpr ⟨_, appending, bind_ok_iff.mpr ⟨(), covered, rfl⟩⟩⟩

theorem rawEpoch_appendRestatement {changed : Layer} {event : Dict} {target id : String} {after : Json}
    (signed : target ∈ signedMetadataFields)
    (appending : appendRestatement H layer event target after = .ok (changed, id)) :
    rawEpoch changed = rawEpoch layer := by
  rcases appendRestatement_layer appending with ⟨prepared, -, rfl⟩
  have other : "merkle_epoch" ≠ target := by
    rintro rfl
    revert signed
    decide
  simp only [rawEpoch, Dict.getD, assign]
  split
  · rw [Dict.lookup_remove, if_neg other]
  · rw [Dict.lookup_set, if_neg other]

theorem stampable_of_stamped {changed : Layer} (stamped : Stamped H layer) (epoch : rawEpoch changed = rawEpoch layer)
    (grown : layer.events <+: changed.events) : Stampable changed := by
  have epochs := epochOf_congr epoch
  have longer := grown.length_le
  have empty := stamped.empty
  have inside := stamped.inside
  refine ⟨?_, fun none => ?_, fun some => ?_⟩
  · rw [epoch, epochs, stamped.rawEpoch, stamped.epoch]
  · rw [none] at longer
    rw [epochs]
    exact empty (by simpa using longer)
  · have positive := List.length_pos_iff.mpr some
    rw [epochs]
    omega

theorem finalizeLayer_or_unsigned {moment : Moment} {layerId : String} (stampable : Stampable layer) :
    (∃ finalized root, finalizeLayer env moment layerId layer = .ok (finalized, root)) ∨
      finalizeLayer env moment layerId layer = .error (.signingFailed layerId) := by
  rcases (@stamp_ok_iff env.hash layer).mpr stampable with ⟨stamped, dropped, stamp⟩
  unfold finalizeLayer
  rw [stamp]
  simp only [bind, Except.bind]
  by_cases signed : moment.config.signingRequired = false ∨ (signIfConfigured env.hash env.signers
      (signingConfig moment.config moment.harness) stamped).2.status = .signed
  · exact Or.inl ⟨_, _, by rw [require, if_pos signed]; rfl⟩
  · exact Or.inr (by rw [require, if_neg signed])

theorem mutate_raises {α : Type} {layerId : String} {mutator : Layer → Outcome (Layer × α)} {failure : Failure}
    (complete : shellComplete layer = true) (raised : mutator layer = .error failure) :
    mutate env layerId mutator layer = .error failure := by
  unfold mutate fileMutate dbMutate
  cases env.backend <;> simp [complete, raised, require, bind, Except.bind]

/-- What the contract package's layer schema promises the writer: it asks for the shell, and keeps accepting a layer
    that is stamped and signed or that gets an event the package dumped. -/
structure SchemaFollows (env : Env) : Prop where
  shell : ∀ layer, env.contracts.validateLayer layer = true → shellComplete layer = true
  finalized : ∀ layer stamped dropped config, env.contracts.validateLayer layer = true →
    stampMerkleMetadata env.hash layer = .ok (stamped, dropped) →
      env.contracts.validateLayer (signIfConfigured env.hash env.signers config stamped).1 = true
  recorded : ∀ layer built event prepared id, env.contracts.validateLayer layer = true →
    env.contracts.eventToDict built = some event → prepareEvent env.hash event = .ok (prepared, id) →
      env.contracts.validateLayer { layer with events := layer.events ++ [prepared] } = true

/-- A value the schema accepts in a map of digests: a null is no value, it deletes. -/
def SchemaValid (env : Env) (field key : String) (value : Json) : Prop :=
  value ≠ .null ∧ ∀ layer fields, env.contracts.validateLayer layer = true → layer.metadata.get field = .obj fields →
    env.contracts.validateLayer
      { layer with metadata := layer.metadata.set field (.obj (Dict.set fields key value)) } = true

theorem finalizeLayer_accepted (follows : SchemaFollows env) {moment : Moment} {layerId root : String}
    (valid : env.contracts.validateLayer layer = true)
    (finalizing : finalizeLayer env moment layerId layer = .ok (next, root)) :
    env.contracts.validateLayer next = true := by
  unfold finalizeLayer at finalizing
  rcases bind_ok_iff.mp finalizing with ⟨⟨stamped, dropped⟩, stamp, finalizing⟩
  replace finalizing := gate_passed finalizing
  cases finalizing
  exact follows.finalized layer stamped dropped _ valid stamp

theorem mergeDelta_single {fields : Dict} {given : Json} (real : given ≠ .null) :
    mergeDelta (.obj fields) (.obj [(key, given)]) = .obj (Dict.set fields key given) := by
  simp [mergeDelta, applyDelta, real]

section Progress

variable {moment : Moment} {layerId rationale recordedAt field : String} {block : Dict} {actor : LayerActor}
  {held given : Json} {fields : Dict}

theorem applyRestatement_moves (follows : SchemaFollows env) (accepts : SchemaValid env field key given)
    (valid : env.contracts.validateLayer layer = true) (distinct : env.backend = .db → DistinctIds layer.events)
    (stamped : Stamped env.hash layer) (signed : field ∈ signedMetadataFields)
    (map : layer.metadata.get field = .obj fields) (moves : MovesEntry block field key held given) {event : Dict}
    {built : LayerEvent} (building : buildRestatementEvent env.hash (block.remove "finding_ref") rationale actor
      recordedAt (restatedFindingRef block) = .ok built) (dump : env.contracts.eventToDict built = some event)
    (gated : restatementEvent env moment block rationale actor recordedAt = .ok (field, event))
    (locked : restatementGates (block.remove "finding_ref") field layer = .ok ()) :
    (∃ next receipt, applyRestatement env moment layerId block rationale actor recordedAt layer = .ok (next, receipt)) ∨
      applyRestatement env moment layerId block rationale actor recordedAt layer = .error (.signingFailed layerId) := by
  rcases @appendRestatement_built env layer block event rationale recordedAt field actor built moves.target building
    dump with ⟨changed, id, appending⟩
  rw [moves.after] at appending
  have kept : env.backend = .db → KeepsLog layer changed := fun db => kept_appendRestatement (distinct db) appending
  rcases appendRestatement_layer appending with ⟨prepared, preparation, shape⟩
  have written : changed.metadata = layer.metadata.set field (.obj (Dict.set fields key given)) := by
    rw [shape, map, mergeDelta_single accepts.1]
    rfl
  have grown : layer.events <+: changed.events := by
    rw [shape]
    simp only
    split
    · exact List.prefix_rfl
    · exact List.prefix_append _ _
  have epoch := rawEpoch_appendRestatement signed appending
  have validChanged : env.contracts.validateLayer changed = true := by
    have placed := accepts.2 layer fields valid map
    rw [← written] at placed
    rw [shape] at placed ⊢
    simp only at placed ⊢
    split
    · exact placed
    · exact follows.recorded _ built event prepared id placed dump preparation
  have after : (block.remove "finding_ref").get "after" = .obj [(key, given)] := moves.remove.after
  unfold applyRestatement
  rw [gated]
  rcases @finalizeLayer_or_unsigned env changed moment layerId (stampable_of_stamped stamped epoch grown) with
    ⟨finalized, root, finalizing⟩ | failed
  · left
    refine ⟨finalized, ⟨[id], 0, root⟩, mutate_ok_iff.mpr ⟨?_, ?_, ?_⟩⟩
    · simp only [locked, after, appending, finalizing, bind, Except.bind, pure, Except.pure]
    · exact finalizeLayer_accepted follows validChanged finalizing
    · cases backend : env.backend with
      | file => exact follows.shell layer valid
      | db => exact (kept backend).congr (finalizeLayer_ok finalizing).1
  · right
    apply mutate_raises (follows.shell layer valid)
    simp only [locked, after, appending, failed, bind, Except.bind]

end Progress

theorem Entry.field_map (keyed : entry.key = some key) : entry.field ∈ mapTargets := by
  cases entry with
  | auditReport => cases keyed
  | _ => simp [Entry.field, mapTargets]

theorem Entry.other_key {other : Entry} (keyed : entry.key = some key) (same : other.field = entry.field)
    (differs : other ≠ entry) : ∃ name, other.key = some name ∧ name ≠ key := by
  cases entry with
  | auditReport => cases keyed
  | claimHash _ =>
    cases keyed
    cases other with
    | claimHash name => exact ⟨name, rfl, fun equal => differs (by rw [equal])⟩
    | _ => exact absurd same (by simp [Entry.field])
  | artifactDigest _ =>
    cases keyed
    cases other with
    | artifactDigest name => exact ⟨name, rfl, fun equal => differs (by rw [equal])⟩
    | _ => exact absurd same (by simp [Entry.field])

theorem RestateEffect.moves_entry {block event : Dict} {actor : LayerActor} {recordedAt target : String} {fields : Dict}
    {held given : Json} (effect : RestateEffect env block actor recordedAt target event layer next)
    (keyed : entry.key = some key) (moves : MovesEntry block entry.field key held given) (real : given ≠ .null)
    (map : layer.metadata.get entry.field = .obj fields) :
    heldAt next entry = some given ∧ ∀ other, other ≠ entry → heldAt next other = heldAt layer other := by
  have same : entry.field = target := Json.str.inj (moves.target.symm.trans effect.blockTarget)
  constructor
  · rw [effect.held_next, if_pos same, keyed, map, moves.after, mergeDelta_single real]
    simp [entryIn]
  · intro other differs
    rw [effect.held_next]
    split
    · next also =>
      have fieldSame := also.trans same.symm
      rcases Entry.other_key keyed fieldSame differs with ⟨name, named, apart⟩
      rw [heldAt, fieldSame, named, map, moves.after, mergeDelta_single real]
      simp [entryIn, apart]
    · rfl

/-- After any history of restatements, patches and ordinary submissions, an entry can be moved from what it holds to
    any value it never held: the restatement passes every gate, and unless the signer fails the entry holds the new
    value and the others what they held. -/
theorem forward_always_possible (env : Env) (layerId : String) (shell start : Layer) (calls : List Call) (entry : Entry)
    (key : String) (held given : Json) (moment : Moment) (block : Dict) (rationale : String) (actor : LayerActor)
    (recordedAt : String) (follows : SchemaFollows env)
    (created : initializeLayer env layerId none shell = .ok start)
    (ordinary : Along (step env) (fun _ call => SubmitsOrdinary call) start calls)
    (stamped : Stamped env.hash (run (step env) start calls)) (keyed : entry.key = some key)
    (holds : heldAt (run (step env) start calls) entry = some held) (accepts : SchemaValid env entry.field key given)
    (never : ∀ past ∈ visited (step env) start calls, Lost given (heldAt past entry))
    (configured : requireSigningConfigured moment.config = .ok ())
    (formed : WellFormed env moment block rationale actor recordedAt)
    (moves : MovesEntry block entry.field key held given) :
    (∃ event, restatementEvent env moment block rationale actor recordedAt = .ok (entry.field, event)) ∧
    restatementGates (block.remove "finding_ref") entry.field (run (step env) start calls) = .ok () ∧
    (applyRestatement env moment layerId block rationale actor recordedAt (run (step env) start calls) ≠
        .error (.signingFailed layerId) →
      ∃ next receipt, applyRestatement env moment layerId block rationale actor recordedAt
        (run (step env) start calls) = .ok (next, receipt) ∧ heldAt next entry = some given ∧
        ∀ other, other ≠ entry → heldAt next other = heldAt (run (step env) start calls) other) := by
  rcases initializeLayer_ok created with ⟨empty, validStart⟩
  have valid := run_valid validStart calls
  have distinct : env.backend = .db → DistinctIds (run (step env) start calls).events := by
    intro db
    apply run_preserves (fun _ _ _ distinct accepted => step_distinct db distinct accepted)
    rw [empty]
    exact ⟨rfl, List.nodup_nil⟩
  have free := run_unretired empty keyed accepts.1 ordinary never
  have current : run (step env) start calls ∈ visited (step env) start calls := run_visited _ _
  have moved : Json.pyEq held given = false := never _ current held holds
  rw [heldAt, keyed] at holds
  rcases entriesOf_some holds with ⟨fields, map, found⟩
  rw [Unretired, keyed] at free
  rcases free with ⟨retired, read, absent⟩
  rcases formed.recordable with ⟨built, event, building, dump⟩
  have gated := restatementEvent_moves configured formed moves (Entry.field_map keyed) moved building dump
  have locked := restatementGates_moves moves.remove stamped map found read absent
  refine ⟨⟨event, gated⟩, locked, fun signs => ?_⟩
  rcases @applyRestatement_moves env _ key moment layerId rationale recordedAt entry.field block actor held given fields
    follows accepts valid distinct stamped entry.field_signed map moves event built building dump gated locked with
    ⟨next, receipt, applied⟩ | failed
  · rcases applyRestatement_ok applied with ⟨target, recorded, effect⟩
    exact ⟨next, receipt, applied, effect.moves_entry keyed moves accepts.1 map⟩
  · exact absurd failed signs

theorem acceptsLayer_congr (accepted : acceptsLayer layer = true)
    (same : ∀ key, key ∉ stampKeys → next.metadata.get key = layer.metadata.get key) : acceptsLayer next = true := by
  have read : ∀ key ∈ shellKeys ++ "audit_report_sha256" :: mapTargets,
      next.metadata.get key = layer.metadata.get key := by
    intro key member
    apply same
    revert key
    decide
  rw [← accepted]
  simp only [shellKeys, mapTargets, List.cons_append, List.nil_append, List.forall_mem_cons, List.not_mem_nil,
    false_implies, implies_true, and_true] at read
  simp only [acceptsLayer, shellKeys, mapTargets, List.all_cons, List.all_nil, read]

theorem referenceEnv_follows : SchemaFollows referenceEnv where
  shell := referenceEnv_complete
  finalized := fun _ _ _ _ valid stamp => acceptsLayer_congr valid (signed_frame stamp).2
  recorded := fun _ _ _ _ _ valid _ _ => valid

theorem referenceEnv_digest (key text : String) : SchemaValid referenceEnv "claim_hashes" key (.str text) := by
  refine ⟨by simp, fun layer fields valid map => ?_⟩
  have held : acceptsLayer layer = true := valid
  show acceptsLayer { layer with metadata := _ } = true
  simp [acceptsLayer, shellKeys, mapTargets, Json.isObj] at held ⊢
  exact ⟨held.1, held.2.2⟩

def moveOn : Dict := claimBlock [("FIND-1", .str "c")] [("FIND-1", .str "d")]

theorem moveOn_formed : WellFormed referenceEnv unsigned moveOn "the digest was wrong" verifiedAdmin sampleInstant where
  human := rfl
  reason := by decide
  bounded := by decide
  ticket := by decide
  recordable := by
    have built : ∃ event, buildRestatementEvent referenceEnv.hash (moveOn.remove "finding_ref") "the digest was wrong"
        verifiedAdmin sampleInstant (restatedFindingRef moveOn) = .ok event := ⟨_, rfl⟩
    rcases built with ⟨event, building⟩
    exact ⟨event, _, building, rfl⟩

theorem forward_always_possible_moved : ∃ moved next receipt,
    step referenceEnv oneClaim (restateCall moveOne) = .ok moved ∧
    applyRestatement referenceEnv unsigned "acme" moveOn "the digest was wrong" verifiedAdmin sampleInstant moved =
      .ok (next, receipt) ∧ heldAt next (.claimHash "FIND-1") = some (.str "d") := by
  have run : okAnd (step referenceEnv oneClaim (restateCall moveOne)) (fun moved =>
      decide (heldAt moved (.claimHash "FIND-1") = some (.str "c")) && !moved.events.isEmpty &&
        (applyRestatement referenceEnv unsigned "acme" moveOn "the digest was wrong" verifiedAdmin sampleInstant
          moved).isOk) = true := by decide +kernel
  rcases okAnd_iff.mp run with ⟨moved, accepted, facts⟩
  simp only [Bool.and_eq_true, decide_eq_true_eq, Bool.not_eq_true', List.isEmpty_eq_false_iff] at facts
  rcases facts with ⟨⟨held, filled⟩, signed⟩
  have path : Runs.run (step referenceEnv) oneClaim [restateCall moveOne] = moved := by
    rw [Runs.run, List.foldl_cons, attempt_ok accepted, List.foldl_nil]
  have stamped : Stamped referenceEnv.hash moved := by
    have fresh : Finalized referenceEnv.hash oneClaim :=
      ⟨fun event member => (List.not_mem_nil member).elim, fun some => absurd rfl some⟩
    exact (fresh.step id accepted).stamped filled
  have never : ∀ past ∈ visited (step referenceEnv) oneClaim [restateCall moveOne],
      Lost (.str "d") (heldAt past (.claimHash "FIND-1")) := by
    rw [visited, visited, attempt_ok accepted]
    intro past member now holds
    simp only [List.mem_cons, List.not_mem_nil, or_false] at member
    rcases member with rfl | rfl
    · cases holds
      decide
    · rw [held] at holds
      cases holds
      decide
  rcases (forward_always_possible referenceEnv "acme" oneClaim oneClaim [restateCall moveOne] (.claimHash "FIND-1")
    "FIND-1" (.str "c") (.str "d") unsigned moveOn "the digest was wrong" verifiedAdmin sampleInstant
    referenceEnv_follows rfl ⟨fun _ body actor member => (List.not_mem_nil member).elim, trivial⟩ (by rwa [path]) rfl
    (by rw [path, held]) (referenceEnv_digest _ _) never rfl moveOn_formed
    ⟨rfl, rfl, rfl⟩).2.2 (by
      rw [path]
      intro failed
      rw [failed] at signed
      cases signed) with ⟨next, receipt, applied, now, -⟩
  rw [path] at applied
  exact ⟨moved, next, receipt, accepted, applied, now⟩

end LedgerProof
