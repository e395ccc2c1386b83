import TraustLedger.Auth.Clients
import TraustLedger.Proofs.AppendOnly
import TraustLedger.Proofs.AuthorisedRestatements

namespace LedgerProof

open Hashing Python Runs Logs LedgerModel

variable {env : Env}

def Unsourced (body : Dict) : Prop := (body.get "source").isObj = false

/-- The event names the actor of the call that brought it. A birth event without a source keeps what it has. -/
def NamesActor (env : Env) (event : Dict) : Call → Prop
  | .restate _ _ _ _ actor _ | .submitBatch _ _ _ actor | .cmdSubmitEvents _ _ actor =>
    actorOf event = env.contracts.actorToDict actor
  | .submitEvent _ rawKind body actor => actorOf event = env.contracts.actorToDict actor ∨
      (∃ kind, parseEventKind rawKind = .ok kind ∧ kind.isBirth = true) ∧ Unsourced body ∧
        event.get "source" = body.get "source"
  | _ => False

theorem actorOf_congr {left right : Dict} (same : right.get "source" = left.get "source") :
    actorOf right = actorOf left := by
  unfold actorOf
  rw [same]

theorem actorOf_stampSource (actor : LayerActor) (body : Dict) :
    actorOf (stampSourceOnEvent env actor body) = env.contracts.actorToDict actor := by
  simp [actorOf, stampSourceOnEvent]

theorem actorOf_dump {built : LayerEvent} {event : Dict} (dumped : dumpEvent env built = .ok event) :
    actorOf event = env.contracts.actorToDict built.actor := by
  obtain ⟨source, held, -, -, actor⟩ := env.contracts.event_source _ _ (dumpEvent_ok dumped)
  simp [actorOf, held, actor]

theorem actorOf_payload {kind : EventKind} {rawEvent payload : Dict} {actor : LayerActor}
    {findingRef rationale recordedAt validity : String}
    (accepted : eventPayload env kind rawEvent actor findingRef rationale recordedAt = .ok (payload, validity)) :
    actorOf payload = env.contracts.actorToDict actor ∨
      kind.isBirth = true ∧ Unsourced rawEvent ∧ payload.get "source" = rawEvent.get "source" := by
  unfold eventPayload at accepted
  split at accepted
  · replace accepted := gate_passed accepted
    obtain ⟨dumped, dumping, accepted⟩ := bind_ok_iff.mp accepted
    cases accepted
    exact Or.inl (actorOf_dump dumping)
  · obtain ⟨decision, -, accepted⟩ := bind_ok_iff.mp accepted
    obtain ⟨built, building, accepted⟩ := bind_ok_iff.mp accepted
    replace accepted := gate_passed accepted
    obtain ⟨dumped, dumping, accepted⟩ := bind_ok_iff.mp accepted
    cases accepted
    replace building := gate_passed building
    cases building
    exact Or.inl (actorOf_dump dumping)
  · next notSeverity notCountersign =>
    cases accepted
    have birth : kind.isBirth = true := by
      cases kind with
      | countersign => exact absurd rfl notCountersign
      | severity => exact absurd rfl notSeverity
      | _ => rfl
    unfold stampActorOnEvent
    split
    · next source held =>
      left
      simp [actorOf, Dict.get_remove]
    · next notObject =>
      right
      refine ⟨birth, ?_, by simp [Dict.get_remove]⟩
      unfold Unsourced
      cases held : rawEvent.get "source" with
      | obj source => exact absurd held (notObject source)
      | _ => rfl

section Doors

variable {layer next : Layer}

theorem grows_named {P : Dict → Prop} {events : List Dict} {prepared : Dict} {id : String} (named : P prepared) :
    Grows Identified P events (if holdsId events id then events else events ++ [prepared]) := by
  split
  · exact .refl Identified.refl _
  · apply Grows.append Identified.refl
    intro added member
    rw [List.mem_singleton.mp member]
    exact named

theorem submitEvent_names {moment : Moment} {rawKind : String} {rawEvent : Dict} {actor : LayerActor}
    {receipt : Receipt} (accepted : submitEvent env moment rawKind rawEvent actor layer = .ok (next, receipt)) :
    Grows Identified (fun event => NamesActor env event (.submitEvent moment rawKind rawEvent actor)) layer.events
      next.events := by
  unfold submitEvent at accepted
  rw [rethrow_ok_iff] at accepted
  replace accepted := gate_passed accepted
  obtain ⟨kind, known, accepted⟩ := bind_ok_iff.mp accepted
  obtain ⟨⟨findingRef, payload, validity⟩, submitted, accepted⟩ := bind_ok_iff.mp accepted
  have mutation := mutate_ok accepted
  replace mutation := gate_passed mutation
  have mutation := ite_bind_ok mutation
  obtain ⟨⟨appended, id⟩, appending, mutation⟩ := bind_ok_iff.mp mutation
  obtain ⟨⟨finalized, root⟩, finalizing, mutation⟩ := bind_ok_iff.mp mutation
  cases mutation
  obtain ⟨prepared, preparation, rfl⟩ := appendOne_ok appending
  obtain ⟨-, -, same⟩ := prepareEvent_ok preparation
  have carried : prepared.get "source" = payload.get "source" :=
    ((sameRestatement_attachIdentity _ payload).trans same).2
  rw [(finalizeLayer_ok finalizing).1]
  apply grows_named
  obtain ⟨-, -, -, building⟩ := submittedEvent_payload submitted
  rcases actorOf_payload building with named | ⟨birth, unsourced, kept⟩
  · exact Or.inl ((actorOf_congr carried).trans named)
  · exact Or.inr ⟨⟨kind, known, birth⟩, unsourced, carried.trans kept⟩

theorem appendMany_names {events : List Dict} {ids : List String} {actor : LayerActor}
    (accepted : appendMany env.hash layer events = .ok (next, ids))
    (stamped : ∀ event ∈ events, actorOf event = env.contracts.actorToDict actor) :
    Grows Identified (fun event => actorOf event = env.contracts.actorToDict actor) layer.events next.events := by
  obtain ⟨added, rfl, offers⟩ := appendMany_ok accepted
  apply Grows.append Identified.refl
  intro event member
  obtain ⟨body, offered, id, preparation⟩ := offers event member
  obtain ⟨-, -, same⟩ := prepareEvent_ok preparation
  exact (actorOf_congr same.2).trans (stamped body offered)

theorem actorOf_batchEvents (actor : LayerActor) (bodies : List Dict) :
    ∀ event ∈ batchEvents env actor bodies, actorOf event = env.contracts.actorToDict actor := by
  intro event member
  obtain ⟨body, -, rfl⟩ := List.mem_map.mp member
  rw [actorOf_congr (sameRestatement_stampFingerprintAlgo _).2, actorOf_stampSource]

theorem actorOf_cmdEvents (actor : LayerActor) (bodies : List Json) :
    ∀ event ∈ cmdEvents env actor bodies, actorOf event = env.contracts.actorToDict actor := by
  intro event member
  obtain ⟨body, -, stamped⟩ := List.mem_filterMap.mp member
  cases body with
  | obj fields =>
    cases stamped
    exact actorOf_stampSource actor fields
  | _ => cases stamped

theorem Draft.names {draft : Layer} {call : Call} {moment : Moment} (drafted : Draft env layer call moment draft)
    (other : ∀ moment kind body actor, call ≠ .submitEvent moment kind body actor) :
    Grows Identified (fun event => NamesActor env event call) layer.events draft.events := by
  cases drafted with
  | restate gated appending =>
    obtain ⟨-, -, -, -, recorded, -⟩ := restatementEvent_ok gated
    obtain ⟨prepared, preparation, events, -⟩ := appendRestatement_ok appending
    obtain ⟨-, -, same⟩ := prepareEvent_ok preparation
    rw [events]
    apply grows_named
    exact (actorOf_congr same.2).trans recorded.actor
  | submitEvent submitted appending => exact absurd rfl (other _ _ _ _)
  | submitBatch appending =>
    have grown := appendMany_names appending (actorOf_batchEvents _ _)
    exact grown
  | stampIdentities =>
    apply Grows.of_same
    rw [List.forall₂_map_right_iff]
    exact List.forall₂_same.mpr fun event _ => identified_attachIdentity _ event
  | patch => exact .refl Identified.refl _
  | sign => exact .refl Identified.refl _

theorem step_names {call : Call} (accepted : step env layer call = .ok next) :
    Grows Identified (fun event => NamesActor env event call) layer.events next.events := by
  by_cases submits : ∃ moment kind body actor, call = .submitEvent moment kind body actor
  · obtain ⟨moment, kind, body, actor, rfl⟩ := submits
    obtain ⟨receipt, accepted⟩ := map_fst_ok accepted
    exact submitEvent_names accepted
  · cases step_written accepted with
    | finalized drafted finalizing =>
      rw [(finalizeLayer_ok finalizing).1]
      apply drafted.names
      intro moment kind body actor same
      exact submits ⟨moment, kind, body, actor, same⟩
    | appended appending => exact appendMany_names appending (actorOf_cmdEvents _ _)
    | endpoint signing =>
      rw [(signLayer_ok signing).1]
      exact .refl Identified.refl _
    | queued _ events =>
      rw [events]
      exact .refl Identified.refl _

end Doors

section Accesses

variable {PrivateKey Key : Type} {ledger : Env} {service : Service Key} {layer next : Layer} {event : Dict}

/-- The event came with this access and names the actor its token was verified for. Over the service a birth event
    without a source is stored as it is; a client has no such door. -/
def RecordedFor (ledger : Env) (service : Service Key) (event : Dict) : Access PrivateKey Key → Prop
  | .rest exchange => ∃ actor,
      resolveActor exchange.env service.trust service.directory exchange.authorization = .ok actor ∧
      (actorOf event = ledger.contracts.actorToDict actor.toLayerActor ∨
        ∃ kind body, exchange.request = .event kind body ∧
          (∃ known, parseEventKind kind = .ok known ∧ known.isBirth = true) ∧ Unsourced body ∧
          event.get "source" = body.get "source")
  | .sdk use => ∃ actor, (use.client.actor use.env).result use.home = .ok actor ∧
      actorOf event = ledger.contracts.actorToDict actor.toLayerActor

theorem RecordedFor.congr {new : Dict} {access : Access PrivateKey Key}
    (same : new.get "source" = event.get "source") (recorded : RecordedFor ledger service event access) :
    RecordedFor ledger service new access := by
  cases access with
  | rest exchange =>
    obtain ⟨actor, resolved, named | ⟨kind, body, request, birth, unsourced, kept⟩⟩ := recorded
    · exact ⟨actor, resolved, Or.inl ((actorOf_congr same).trans named)⟩
    · exact ⟨actor, resolved, Or.inr ⟨kind, body, request, birth, unsourced, same.trans kept⟩⟩
  | sdk use =>
    obtain ⟨actor, verified, named⟩ := recorded
    exact ⟨actor, verified, (actorOf_congr same).trans named⟩

theorem serve_names {exchange : Exchange PrivateKey Key} (served : serve ledger service layer exchange = .ok next) :
    Grows Identified (fun event => RecordedFor ledger service event (.rest exchange)) layer.events next.events := by
  obtain ⟨actor, resolved, rest⟩ := bind_ok_iff.mp served
  obtain ⟨call, routing, rest⟩ := bind_ok_iff.mp rest
  apply (step_names (mapError_ok rest)).mono
  intro event named
  refine ⟨actor, resolved, ?_⟩
  cases request : exchange.request with
  | restate layerId restatement findingRef rationale recordedAt =>
    rw [request] at routing
    obtain ⟨_, -, routing⟩ := bind_ok_iff.mp routing
    cases routing
    exact Or.inl named
  | event kind body =>
    rw [request] at routing
    cases routing
    rcases named with named | ⟨birth, unsourced, kept⟩
    · exact Or.inl named
    · exact Or.inr ⟨kind, body, rfl, birth, unsourced, kept⟩
  | submit layerId body =>
    rw [request] at routing
    cases routing
    exact Or.inl named
  | _ =>
    rw [request] at routing
    cases routing
    exact absurd named not_false

theorem caller_verified {client : LedgerClient PrivateKey Key} {env : AuthEnv PrivateKey Key}
    {home : Home PrivateKey Key} {named : Option TokenActor} {actor : TokenActor}
    (called : (client.caller env named).result home = .ok actor) : (client.actor env).result home = .ok actor := by
  obtain ⟨verified, checked, rest, -⟩ := GuardedCalls.Call.bind_ok called
  cases named with
  | none =>
    cases rest
    exact checked
  | some other =>
    obtain ⟨_, -, rest, -⟩ := GuardedCalls.Call.bind_ok rest
    cases rest
    exact checked

theorem countersignKind_human {severity : Option String} {kind : EventKind}
    (known : parseEventKind (countersignKind severity) = .ok kind) : kind.isBirth = false := by
  cases severity with
  | none =>
    cases known
    rfl
  | some level =>
    cases known
    rfl

theorem use_names {use : ClientUse PrivateKey Key} {call : Call} (made : use.call.result use.home = .ok call)
    (named : NamesActor ledger event call) : RecordedFor ledger service event (.sdk use) := by
  unfold ClientUse.call at made
  cases operation : use.operation with
  | submit layerId events needsReview =>
    rw [operation] at made
    obtain ⟨actor, verified, made, -⟩ := GuardedCalls.Call.bind_ok made
    cases made
    exact ⟨actor, verified, named⟩
  | countersign layerId findingRef rationale recordedAt decision severity other =>
    rw [operation] at made
    obtain ⟨actor, called, made, -⟩ := GuardedCalls.Call.bind_ok made
    cases made
    refine ⟨actor, caller_verified called, ?_⟩
    rcases named with named | ⟨⟨kind, known, birth⟩, -⟩
    · exact named
    · rw [countersignKind_human known] at birth
      cases birth
  | restate layerId restatement rationale recordedAt findingRef other =>
    rw [operation] at made
    obtain ⟨actor, called, made, -⟩ := GuardedCalls.Call.bind_ok made
    cases made
    exact ⟨actor, caller_verified called, named⟩
  | resolve layerId key decision note =>
    rw [operation] at made
    cases made
    exact absurd named not_false
  | _ =>
    rw [operation] at made
    obtain ⟨actor, -, made, -⟩ := GuardedCalls.Call.bind_ok made
    cases made
    exact absurd named not_false

theorem grantAccess_names {access : Access PrivateKey Key}
    (granted : grantAccess ledger service layer access = .ok next) :
    Grows Identified (fun event => RecordedFor ledger service event access) layer.events next.events := by
  cases access with
  | rest exchange => exact serve_names granted
  | sdk use =>
    obtain ⟨call, made, rest⟩ := bind_ok_iff.mp granted
    have accepted := rethrow_ok_iff.mp (mapError_ok rest)
    exact (step_names accepted).mono fun event named => use_names made named

end Accesses

def RecordedIn {PrivateKey Key : Type} (ledger : Env) (service : Service Key) (accesses : List (Access PrivateKey Key))
    (event : Dict) : Prop := ∃ access ∈ accesses, RecordedFor ledger service event access

/-- Over every interleaving of requests and client operations, whatever actors are passed in: what was in the log
    stands where it stood, and every new event names an actor whom the token of one of them was verified for. -/
theorem recorded_as_caller {PrivateKey Key : Type} (ledger : Env) (service : Service Key) (start : Layer)
    (accesses : List (Access PrivateKey Key)) :
    Grows Identified (RecordedIn ledger service accesses) start.events
      (run (grantAccess ledger service) start accesses).events := by
  apply @run_preserves_mem _ _ _ (grantAccess ledger service) fun layer =>
    Grows Identified (RecordedIn ledger service accesses) start.events layer.events
  · exact .refl Identified.refl _
  · intro layer access next member grown granted
    have more : Grows Identified (RecordedIn ledger service accesses) layer.events next.events :=
      (grantAccess_names granted).mono fun event recorded => ⟨access, member, recorded⟩
    apply Grows.trans _ _ grown more
    · exact fun _ _ _ first second => first.trans second
    · intro old new same recorded
      obtain ⟨earlier, found, recorded⟩ := recorded
      exact ⟨earlier, found, recorded.congr same.sameRestatement.2⟩

end LedgerProof
