import TraustLedger.WriterCalls
import TraustLedger.Proofs.BackendAgreement

namespace LedgerProof

open Hashing Python Runs Sha256 LedgerModel

variable {env : Env} {H : HashFunction} {layer : Layer} {layerId : String}

theorem prepareEvent_ok_iff {event prepared : Dict} {id : String} : prepareEvent H event = .ok (prepared, id) ↔
    (∃ restates, isRestatement event = .ok restates ∧
      (restates = false ∨ (event.get "disposition").truthy = false)) ∧
    canonicalId H event = .ok id ∧ ((event.get "event_id").truthy = false ∨ event.get "event_id" = .str id) ∧
    enforceIdentityRule prepared = .ok () ∧ prepared = stampFingerprintAlgo (event.set "event_id" (.str id)) := by
  simp only [prepareEvent, bind_ok_iff, require_ok_iff, exists_const]
  constructor
  · intro given
    rcases given with ⟨restates, read, empty, canonical, computed, supplied, _, identity, result⟩
    cases result
    exact ⟨⟨restates, read, empty⟩, computed, supplied, identity, rfl⟩
  · intro given
    rcases given with ⟨⟨restates, read, empty⟩, computed, supplied, identity, rfl⟩
    exact ⟨restates, read, empty, id, computed, supplied, (), identity, rfl⟩

section Rereading

variable {left right : Dict} (same : ∀ key ∈ ["source", "disposition", "finding_ref"], right.lookup key = left.lookup key)

include same

theorem canonicalId_congr : canonicalId H right = canonicalId H left := by
  simp only [List.forall_mem_cons] at same
  rcases same with ⟨source, disposition, findingRef, -⟩
  simp only [canonicalId, Dict.get, Dict.getD, source, disposition, findingRef]

theorem enforceIdentityRule_congr : enforceIdentityRule right = enforceIdentityRule left := by
  simp only [List.forall_mem_cons] at same
  rcases same with ⟨source, disposition, -⟩
  simp only [enforceIdentityRule, Dict.get, source, disposition]

end Rereading

theorem lookup_prepared {event : Dict} {id : Json} :
    ∀ key ∈ ["source", "disposition", "finding_ref"],
      (stampFingerprintAlgo (event.set "event_id" id)).lookup key = event.lookup key := by
  intro key member
  have other : key ≠ "fingerprint_algo" ∧ key ≠ "event_id" := by
    simp only [List.mem_cons, List.not_mem_nil, or_false] at member
    rcases member with rfl | rfl | rfl <;> decide
  unfold stampFingerprintAlgo
  split <;> simp [other]

def Replayable (H : HashFunction) (event : Dict) : Prop :=
  ∃ prepared id, prepareEvent H event = .ok (prepared, id) ∧ event.get "event_id" = .str id

theorem replayable_prepared {event prepared : Dict} {id : String}
    (preparation : prepareEvent H event = .ok (prepared, id)) : Replayable H prepared := by
  have lookups := fun key (other : key ≠ "fingerprint_algo") => prepareEvent_lookup preparation other
  have named : prepared.get "event_id" = .str id := by
    rw [Dict.get, lookups _ (by decide)]
    rfl
  have read : ∀ key ∈ ["source", "disposition", "finding_ref"], prepared.lookup key = event.lookup key := by
    simp only [List.forall_mem_cons, List.not_mem_nil, false_imp_iff, implies_true, and_true]
    refine ⟨?_, ?_, ?_⟩ <;> rw [lookups _ (by decide), if_neg (by decide)]
  have disposition : prepared.get "disposition" = event.get "disposition" := by
    rw [Dict.get, Dict.get, read _ (by simp)]
  rcases prepareEvent_ok_iff.mp preparation with ⟨⟨restates, known, empty⟩, computed, -, identity, -⟩
  refine ⟨_, id, prepareEvent_ok_iff.mpr ⟨⟨restates, ?_, ?_⟩, ?_, .inr named, ?_, rfl⟩, named⟩
  · rw [isRestatement_congr (prepareEvent_ok preparation).2.2, known]
  · rwa [disposition]
  · rw [canonicalId_congr read, computed]
  · rw [← identity]
    exact enforceIdentityRule_congr lookup_prepared

/-- The logs the writer leaves: every event has its own id, and that id is the one computed from the event. -/
structure WriterLog (H : HashFunction) (events : List Dict) : Prop where
  distinct : DistinctIds events
  replayable : ∀ event ∈ events, Replayable H event

theorem Replayable.canonical {event : Dict} (replayable : Replayable H event) :
    ∃ id, canonicalId H event = .ok id ∧ event.get "event_id" = .str id := by
  rcases replayable with ⟨prepared, id, preparation, named⟩
  exact ⟨id, (prepareEvent_ok preparation).2.1, named⟩

theorem writerLog_nil (H : HashFunction) : WriterLog H [] := ⟨⟨rfl, List.nodup_nil⟩, by simp⟩

theorem replayable_appendOne (replayable : ∀ event ∈ layer.events, Replayable H event) {event : Dict} {appended : Layer}
    {id : String} (accepted : appendOne H layer event = .ok (appended, id)) :
    ∀ event ∈ appended.events, Replayable H event := by
  rcases appendOne_ok accepted with ⟨prepared, preparation, rfl⟩
  simp only
  split
  · exact replayable
  · simp only [List.forall_mem_append, List.forall_mem_singleton]
    exact ⟨replayable, replayable_prepared preparation⟩

theorem replayable_appendMany (replayable : ∀ event ∈ layer.events, Replayable H event) {events : List Dict}
    {appended : Layer} {ids : List String} (accepted : appendMany H layer events = .ok (appended, ids)) :
    ∀ event ∈ appended.events, Replayable H event := by
  rcases appendMany_ok accepted with ⟨added, rfl, offers⟩
  simp only [List.forall_mem_append]
  refine ⟨replayable, fun event member => ?_⟩
  rcases offers event member with ⟨body, -, id, preparation⟩
  exact replayable_prepared preparation

theorem restateWith_appends {event : Dict} {metadataUpdates : Layer → Outcome Dict} {changed : Layer} {id : String}
    (accepted : restateWith H layer event metadataUpdates = .ok (changed, id)) :
    ∃ appended, appendOne H layer event = .ok (appended, id) ∧ changed.events = appended.events := by
  unfold restateWith at accepted
  rcases bind_ok_iff.mp accepted with ⟨⟨appended, canonical⟩, appending, accepted⟩
  rcases bind_ok_iff.mp accepted with ⟨updates, -, accepted⟩
  replace accepted := gate_passed accepted
  cases accepted
  exact ⟨appended, appending, rfl⟩

theorem restateWith_mergeDelta (event : Dict) (target : String) (after : Json) :
    restateWith H layer event (fun appended => .ok [(target, mergeDelta (appended.metadata.get target) after)]) =
      appendRestatement H layer event target after := by
  unfold restateWith appendRestatement
  refine bind_congr fun appended => ?_
  simp [bind, Except.bind, assignAll, Dict.items, Dict.get_cons]

theorem apply_appends {call : WriterCall} {next : Layer} {ids : List String}
    (accepted : call.apply env layerId layer = .ok (next, ids)) :
    ∃ appended, next.events = appended.events ∧
      ((∃ event id, appendOne env.hash layer event = .ok (appended, id)) ∨
        ∃ events more, appendMany env.hash layer events = .ok (appended, more)) := by
  cases call with
  | appendEvent event =>
    rcases bind_ok_iff.mp accepted with ⟨⟨appended, id⟩, appending, result⟩
    cases result
    exact ⟨next, rfl, .inl ⟨event, id, appending⟩⟩
  | appendEvents events => exact ⟨next, rfl, .inr ⟨events, ids, accepted⟩⟩
  | appendRestatement event metadataUpdates finalize beforeAppend =>
    rcases bind_ok_iff.mp (gate_passed accepted) with ⟨⟨changed, id⟩, restating, accepted⟩
    rcases restateWith_appends restating with ⟨appended, appending, same⟩
    refine ⟨appended, ?_, .inl ⟨event, id, appending⟩⟩
    cases finalize with
    | none =>
      cases accepted
      exact same
    | some moment =>
      rcases bind_ok_iff.mp accepted with ⟨⟨finalized, root⟩, finalizing, accepted⟩
      cases accepted
      exact (finalizeLayer_ok finalizing).1.trans same

theorem writerStep_ok_iff {call : WriterCall} {next : Layer} : writerStep env layerId layer call = .ok next ↔
    ∃ ids, call.apply env layerId layer = .ok (next, ids) ∧ Admits env layer next := by
  unfold writerStep
  cases outcome : mutate env layerId (fun layer => call.apply env layerId layer) layer with
  | error failure =>
    simp only [Functor.map, Except.map, reduceCtorEq, false_iff, not_exists]
    intro ids stored
    rw [mutate_ok_iff.mpr stored] at outcome
    cases outcome
  | ok result =>
    rcases result with ⟨mutated, ids⟩
    simp only [Functor.map, Except.map, Except.ok.injEq]
    constructor
    · rintro rfl
      exact ⟨ids, mutate_ok_iff.mp outcome⟩
    · intro given
      rcases given with ⟨more, stored⟩
      rw [mutate_ok_iff.mpr stored] at outcome
      cases outcome
      rfl

theorem writerStep_log {call : WriterCall} {next : Layer} (log : WriterLog env.hash layer.events)
    (accepted : writerStep env layerId layer call = .ok next) :
    layer.events <+: next.events ∧ WriterLog env.hash next.events := by
  rcases writerStep_ok_iff.mp accepted with ⟨ids, applied, -⟩
  rcases apply_appends applied with ⟨appended, same, ⟨event, id, appending⟩ | ⟨events, more, appending⟩⟩
  · rcases kept_appendOne log.distinct appending with ⟨grown, distinct⟩
    rw [same]
    exact ⟨grown, distinct, replayable_appendOne log.replayable appending⟩
  · rcases kept_appendMany log.distinct appending with ⟨grown, distinct⟩
    rw [same]
    exact ⟨grown, distinct, replayable_appendMany log.replayable appending⟩

theorem run_log (log : WriterLog env.hash layer.events) (calls : List WriterCall) :
    layer.events <+: (run (writerStep env layerId) layer calls).events ∧
      WriterLog env.hash (run (writerStep env layerId) layer calls).events := by
  apply @run_preserves _ _ _ (writerStep env layerId)
    (fun s => layer.events <+: s.events ∧ WriterLog env.hash s.events)
  · rintro s call next ⟨grown, held⟩ accepted
    rcases writerStep_log held accepted with ⟨more, kept⟩
    exact ⟨grown.trans more, kept⟩
  · exact ⟨List.prefix_rfl, log⟩

theorem appendOne_replayable {event : Dict} (replayable : Replayable H event) (stored : event ∈ layer.events) :
    ∃ id, appendOne H layer event = .ok (layer, id) := by
  rcases replayable with ⟨prepared, id, preparation, named⟩
  have held : holdsId layer.events id = true :=
    List.any_eq_true.mpr ⟨event, stored, by rw [named, Json.pyEq_self]⟩
  exact ⟨id, bind_ok_iff.mpr ⟨(prepared, id), preparation, if_pos held⟩⟩

theorem appendMany_replayable {events : List Dict} (replayable : ∀ event ∈ events, Replayable H event)
    (stored : ∀ event ∈ events, event ∈ layer.events) : appendMany H layer events = .ok (layer, []) := by
  induction events with
  | nil => rfl
  | cons event rest ih =>
    rw [List.forall_mem_cons] at replayable stored
    rcases replayable with ⟨⟨prepared, id, preparation, named⟩, laterReplayable⟩
    have held : holdsId layer.events id = true :=
      List.any_eq_true.mpr ⟨event, stored.1, by rw [named, Json.pyEq_self]⟩
    rw [appendMany]
    exact bind_ok_iff.mpr ⟨(prepared, id), preparation, (if_pos held).trans (ih laterReplayable stored.2)⟩

def Reappends (events : List Dict) : WriterCall → Prop
  | .appendEvent event => event ∈ events
  | .appendEvents again => ∀ event ∈ again, event ∈ events
  | .appendRestatement _ _ _ _ => False

theorem apply_reappends (log : WriterLog env.hash layer.events) {call : WriterCall}
    (again : Reappends layer.events call) : ∃ ids, call.apply env layerId layer = .ok (layer, ids) := by
  cases call with
  | appendEvent event =>
    rcases appendOne_replayable (log.replayable event again) again with ⟨id, appending⟩
    exact ⟨[id], bind_ok_iff.mpr ⟨(layer, id), appending, rfl⟩⟩
  | appendEvents events =>
    exact ⟨[], appendMany_replayable (fun event member => log.replayable event (again event member)) again⟩
  | appendRestatement _ _ _ _ => cases again

theorem run_reappends (log : WriterLog env.hash layer.events) {calls : List WriterCall}
    (again : ∀ call ∈ calls, Reappends layer.events call) : run (writerStep env layerId) layer calls = layer := by
  induction calls with
  | nil => rfl
  | cons call calls ih =>
    rw [List.forall_mem_cons] at again
    have unchanged : attempt (writerStep env layerId) layer call = layer := by
      refine @attempt_preserves _ _ _ (writerStep env layerId) (fun s => s = layer) layer call rfl ?_
      intro next accepted
      rcases writerStep_ok_iff.mp accepted with ⟨ids, applied, -⟩
      rcases @apply_reappends env layer layerId log call again.1 with ⟨more, kept⟩
      rw [kept] at applied
      cases applied
      rfl
    rw [run, List.foldl_cons, unchanged]
    exact ih again.2

/-- The schema looks at the events of a layer one by one: a log it takes, it takes without its last events too. -/
def ItemwiseSchema (contracts : Contracts) : Prop :=
  ∀ layer events, contracts.validateLayer { layer with events := layer.events ++ events } = true →
    contracts.validateLayer layer = true

theorem appendMany_singly {events : List Dict} {next : Layer} {ids : List String}
    (accepted : appendMany H layer events = .ok (next, ids)) :
    events.foldlM (fun layer event => Prod.fst <$> appendOne H layer event) layer = .ok next := by
  induction events generalizing layer ids with
  | nil =>
    cases accepted
    rfl
  | cons event rest ih =>
    rw [appendMany] at accepted
    rcases bind_ok_iff.mp accepted with ⟨⟨prepared, id⟩, preparation, accepted⟩
    simp only at accepted
    rw [List.foldlM_cons, bind_ok_iff]
    split at accepted
    · next held =>
      refine ⟨layer, ?_, ih accepted⟩
      simp [appendOne, preparation, held, bind, Except.bind, pure, Except.pure, Functor.map, Except.map]
    · next fresh =>
      rcases bind_ok_iff.mp accepted with ⟨⟨longer, more⟩, later, accepted⟩
      cases accepted
      refine ⟨{ layer with events := layer.events ++ [prepared] }, ?_, ih later⟩
      simp [appendOne, preparation, fresh, bind, Except.bind, pure, Except.pure, Functor.map, Except.map]

theorem run_singly (itemwise : ItemwiseSchema env.contracts) (log : WriterLog env.hash layer.events)
    (shell : env.backend = .file → shellComplete layer = true) {events : List Dict} {next : Layer}
    {ids : List String} (accepted : appendMany env.hash layer events = .ok (next, ids))
    (valid : env.contracts.validateLayer next = true) :
    run (writerStep env layerId) layer (events.map .appendEvent) = next := by
  induction events generalizing layer ids with
  | nil =>
    cases accepted
    rfl
  | cons event rest ih =>
    rw [appendMany] at accepted
    rcases bind_ok_iff.mp accepted with ⟨⟨prepared, id⟩, preparation, accepted⟩
    simp only at accepted
    rw [List.map_cons, run, List.foldl_cons]
    split at accepted
    · next held =>
      have appending : appendOne env.hash layer event = .ok (layer, id) :=
        bind_ok_iff.mpr ⟨(prepared, id), preparation, if_pos held⟩
      have unchanged : attempt (writerStep env layerId) layer (.appendEvent event) = layer := by
        refine @attempt_preserves _ _ _ (writerStep env layerId) (fun s => s = layer) layer _ rfl ?_
        intro stored storing
        rcases writerStep_ok_iff.mp storing with ⟨_, applied, -⟩
        rcases bind_ok_iff.mp applied with ⟨_, again, result⟩
        rw [appending] at again
        cases again
        cases result
        rfl
      rw [unchanged]
      exact ih log shell accepted
    · next fresh =>
      rcases bind_ok_iff.mp accepted with ⟨⟨longer, more⟩, later, accepted⟩
      cases accepted
      have appending : appendOne env.hash layer event =
          .ok ({ layer with events := layer.events ++ [prepared] }, id) :=
        bind_ok_iff.mpr ⟨(prepared, id), preparation, if_neg fresh⟩
      have kept := kept_appendOne log.distinct appending
      have admitted : Admits env layer { layer with events := layer.events ++ [prepared] } := by
        rcases appendMany_ok later with ⟨added, grown, -⟩
        rw [grown] at valid
        refine ⟨itemwise _ added valid, ?_⟩
        cases backend : env.backend with
        | file => exact shell backend
        | db => exact kept
      have stored : writerStep env layerId layer (.appendEvent event) =
          .ok { layer with events := layer.events ++ [prepared] } :=
        writerStep_ok_iff.mpr ⟨[id], bind_ok_iff.mpr ⟨_, appending, rfl⟩, admitted⟩
      rw [attempt_ok stored]
      exact ih ⟨kept.2, replayable_appendOne log.replayable appending⟩ shell later

/-- From an empty log on, any calls of the writer leave a log whose ids are distinct and computed from their
    events, that starts every later one, that takes its own events again without a change, and to which a batch
    adds what its events add one by one. -/
theorem writer_log_invariants (env : Env) (layerId : String) (start : Layer) (empty : start.events = [])
    (calls later : List WriterCall) :
    ((run (writerStep env layerId) start calls).events.map fun event => event.get "event_id").Nodup ∧
    (∀ event ∈ (run (writerStep env layerId) start calls).events,
      ∃ id, canonicalId env.hash event = .ok id ∧ event.get "event_id" = .str id) ∧
    (run (writerStep env layerId) start calls).events <+:
      (run (writerStep env layerId) start (calls ++ later)).events ∧
    (∀ call, Reappends (run (writerStep env layerId) start calls).events call →
      ∃ ids, call.apply env layerId (run (writerStep env layerId) start calls) =
        .ok (run (writerStep env layerId) start calls, ids)) ∧
    (∀ again, (∀ call ∈ again, Reappends (run (writerStep env layerId) start calls).events call) →
      run (writerStep env layerId) (run (writerStep env layerId) start calls) again =
        run (writerStep env layerId) start calls) ∧
    (∀ events next ids, appendMany env.hash (run (writerStep env layerId) start calls) events = .ok (next, ids) →
      events.foldlM (fun layer event => Prod.fst <$> appendOne env.hash layer event)
        (run (writerStep env layerId) start calls) = .ok next) ∧
    (ItemwiseSchema env.contracts → ∀ events next,
      writerStep env layerId (run (writerStep env layerId) start calls) (.appendEvents events) = .ok next →
        run (writerStep env layerId) (run (writerStep env layerId) start calls) (events.map .appendEvent) = next) := by
  have initial : WriterLog env.hash start.events := by
    rw [empty]
    exact writerLog_nil env.hash
  rcases @run_log env start layerId initial calls with ⟨-, log⟩
  refine ⟨log.distinct.distinct, fun event member => (log.replayable event member).canonical, ?_,
    fun call => apply_reappends log, fun again => run_reappends log, fun events next ids => appendMany_singly, ?_⟩
  · have split : run (writerStep env layerId) start (calls ++ later) =
        run (writerStep env layerId) (run (writerStep env layerId) start calls) later := by
      simp [run]
    rw [split]
    exact (run_log log later).1
  · intro itemwise events next accepted
    rcases writerStep_ok_iff.mp accepted with ⟨ids, applied, valid, admitted⟩
    refine run_singly itemwise log (fun backend => ?_) applied valid
    rw [backend] at admitted
    exact admitted

def scanOf (ref validity kind : String) : Dict :=
  Dict.ofList [("finding_ref", .str "FIND-1"), ("disposition", .obj [("validity", .str validity)]),
    ("source", .obj (Dict.ofList [("ref", .str ref), ("actor", .obj [("kind", .str kind)])]))]

def repeatedScans : List WriterCall :=
  [.appendEvent (scanOf "scan-1" "confirmed" "machine"),
    .appendEvents [scanOf "scan-2" "confirmed" "machine", scanOf "scan-1" "confirmed" "machine"],
    .appendEvent (scanOf "scan-3" "false_positive" "human")]

theorem writer_log_invariants_scans : oneClaim.events = [] ∧
    (run (writerStep referenceEnv "acme") oneClaim repeatedScans).events.length = 2 ∧
    ((run (writerStep referenceEnv "acme") oneClaim repeatedScans).events.map fun event => event.get "event_id").Nodup :=
  ⟨rfl, by decide +kernel, (writer_log_invariants referenceEnv "acme" oneClaim rfl repeatedScans []).1⟩

end LedgerProof
