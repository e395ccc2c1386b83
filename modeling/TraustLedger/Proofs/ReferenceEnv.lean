import TraustLedger.Proofs.RestatementProofs
import TraustLedger.System
import TraustLedger.Library.Sha256

namespace LedgerProof

open Hashing Python Runs Sha256 LedgerModel

def dumped (entries : List (String × Json)) : Dict := applyDelta [] entries

theorem lookup_dumped (entries : List (String × Json)) (key : String) :
    (dumped entries).lookup key =
      (entries.lookup key).elim none fun value => if value = .null then none else some value := by
  rw [dumped, lookup_applyDelta, Deltas.apply, deltaOf]
  cases entries.lookup key <;> simp

@[simp] theorem get_dumped (entries : List (String × Json)) (key : String) :
    (dumped entries).get key = Dict.get entries key := by
  rw [Dict.get, Dict.get, lookup_dumped]
  cases entries.lookup key with
  | none => rfl
  | some value => by_cases gone : value = .null <;> simp [gone]

def dumpActor (actor : LayerActor) : Dict :=
  dumped [("kind", .str actor.kind), ("identity", optionalText actor.identity),
    ("identity_verified", optionalFlag actor.identityVerified),
    ("identity_provider", optionalText actor.identityProvider),
    ("employee_status", optionalText actor.employeeStatus), ("ldap_verified", optionalFlag actor.ldapVerified)]

def dumpSource (event : LayerEvent) : Dict :=
  dumped [("type", .str event.sourceType), ("ref", .str event.sourceRef), ("actor", .obj (dumpActor event.actor))]

def dumpDisposition (event : LayerEvent) : Dict :=
  dumped [("validity", optionalText event.validity), ("severity", optionalText event.severity)]

def dumpLayerEvent (event : LayerEvent) : Dict :=
  dumped [("event_id", .str event.eventId), ("finding_ref", .str event.findingRef),
    ("recorded_at", .str event.recordedAt), ("occurred_at", .str event.occurredAt),
    ("source", .obj (dumpSource event)), ("disposition", .obj (dumpDisposition event)),
    ("rationale", .str event.rationale), ("restatement", event.restatement.elim .null .obj)]

def textOf : Json → Option String
  | .str text => some text
  | _ => none

def flagOf : Json → Option Bool
  | .bool flag => some flag
  | _ => none

def readActor (actor : Dict) : LayerActor where
  kind := (textOf (actor.get "kind")).getD ""
  identity := textOf (actor.get "identity")
  identityVerified := flagOf (actor.get "identity_verified")
  identityProvider := textOf (actor.get "identity_provider")
  employeeStatus := textOf (actor.get "employee_status")
  ldapVerified := flagOf (actor.get "ldap_verified")

def readEvent (event : Dict) : Option ParsedEvent :=
  match event.get "finding_ref", event.get "source", event.get "disposition" with
  | .str findingRef, .obj source, .obj disposition => match Dict.get source "actor" with
    | .obj actor => some {
        eventId := (textOf (event.get "event_id")).getD ""
        findingRef := findingRef
        recordedAt := (textOf (event.get "recorded_at")).getD ""
        occurredAt := textOf (event.get "occurred_at")
        fingerprint := textOf (event.get "fingerprint")
        sourceType := (textOf (Dict.get source "type")).getD ""
        actor := readActor actor
        validity := textOf (Dict.get disposition "validity")
        resolution := textOf (Dict.get disposition "resolution")
        severity := textOf (Dict.get disposition "severity")
        evidenceGrade := textOf (event.get "evidence_grade")
        autoAcceptTier := flagOf (event.get "auto_accept_tier")
        rationale := textOf (event.get "rationale") }
    | _ => none
  | _, _, _ => none

def acceptsLayer (layer : Layer) : Bool :=
  shellKeys.all (fun key => isText (layer.metadata.get key)) &&
    !(layer.metadata.get "audit_report_sha256").isObj &&
    mapTargets.all fun field => layer.metadata.get field = .null || (layer.metadata.get field).isObj

@[simp] theorem textOf_str (text : String) : textOf (.str text) = some text := rfl

@[simp] theorem textOf_optionalText (value : Option String) : textOf (optionalText value) = value := by
  cases value <;> rfl

@[simp] theorem flagOf_optionalFlag (value : Option Bool) : flagOf (optionalFlag value) = value := by
  cases value <;> rfl

theorem readActor_dumpActor (actor : LayerActor) : readActor (dumpActor actor) = actor := by
  simp [readActor, dumpActor, Dict.get_cons]

theorem readEvent_dump (event : LayerEvent) {stored : Dict}
    (same : ∀ key, key ≠ "fingerprint" → key ≠ "fingerprint_algo" →
      stored.lookup key = (dumpLayerEvent event).lookup key) :
    ∃ parsed, readEvent stored = some parsed ∧ ReadsBack event parsed := by
  have read : ∀ key, key ≠ "fingerprint" → key ≠ "fingerprint_algo" →
      stored.get key = (dumpLayerEvent event).get key := by
    intro key notPrint notAlgo
    rw [Dict.get, Dict.get, same key notPrint notAlgo]
  have fields : stored.get "finding_ref" = .str event.findingRef ∧ stored.get "source" = .obj (dumpSource event) ∧
      stored.get "disposition" = .obj (dumpDisposition event) ∧ stored.get "event_id" = .str event.eventId ∧
      stored.get "recorded_at" = .str event.recordedAt ∧ stored.get "evidence_grade" = .null := by
    refine ⟨?_, ?_, ?_, ?_, ?_, ?_⟩ <;> rw [read _ (by decide) (by decide)] <;> simp [dumpLayerEvent, Dict.get_cons]
  obtain ⟨findingRef, source, disposition, eventId, recordedAt, grade⟩ := fields
  have actor : Dict.get (dumpSource event) "actor" = .obj (dumpActor event.actor) := by
    simp [dumpSource, Dict.get_cons]
  simp only [readEvent, findingRef, source, disposition, actor]
  refine ⟨_, rfl, ?_⟩
  constructor
  · simp [eventId]
  · rfl
  · simp [recordedAt]
  · simp [dumpSource, Dict.get_cons]
  · exact readActor_dumpActor event.actor
  · simp [dumpDisposition, Dict.get_cons]
  · simp [dumpDisposition, Dict.get_cons]
  · simp [grade, textOf]

theorem readEvent_some {event : Dict} {parsed : ParsedEvent} (read : readEvent event = some parsed) :
    ∃ source actor, event.get "finding_ref" = .str parsed.findingRef ∧ event.get "source" = .obj source ∧
      Dict.get source "actor" = .obj actor := by
  unfold readEvent at read
  split at read
  · next findingRef source disposition ref held _ =>
    split at read
    · next actor acting =>
      cases read
      exact ⟨source, actor, ref, held, acting⟩
    · cases read
  · cases read

/-- A contract package that has exactly the fields the ledger reads. -/
def referenceContracts : Contracts where
  actorToDict := dumpActor
  eventToDict := fun event => some (dumpLayerEvent event)
  parseEvent := readEvent
  validateLayer := acceptsLayer
  actor_kind := fun actor => by simp [dumpActor, Dict.get_cons]
  actor_identity := fun actor => by simp [dumpActor, Dict.get_cons]
  actor_verified := fun actor => by simp [dumpActor, Dict.get_cons]
  actor_status := fun actor => by simp [dumpActor, Dict.get_cons]
  actor_ldap := fun actor => by simp [dumpActor, Dict.get_cons]
  event_id := fun event dump accepted => by
    cases accepted
    simp [dumpLayerEvent, Dict.get_cons]
  event_finding_ref := fun event dump accepted => by
    cases accepted
    simp [dumpLayerEvent, Dict.get_cons]
  event_source := fun event dump accepted => by
    cases accepted
    refine ⟨dumpSource event, ?_, ?_, ?_, ?_⟩
    · simp [dumpLayerEvent, Dict.get_cons]
    · simp [dumpSource, Dict.get_cons]
    · simp [dumpSource, lookup_dumped, Dict.lookup_cons_ite]
    · simp [dumpSource, Dict.get_cons]
  event_disposition := fun event dump accepted => by
    cases accepted
    refine ⟨dumpDisposition event, ?_, ?_, ?_, ?_⟩
    · simp [dumpLayerEvent, Dict.get_cons]
    · simp [dumpDisposition, Dict.get_cons]
    · simp [dumpDisposition, Dict.get_cons]
    · intro noValidity noSeverity
      simp [dumpDisposition, noValidity, noSeverity, optionalText, dumped, applyDelta, Dict.remove]
  event_fingerprint := fun event dump accepted => by
    cases accepted
    simp [dumpLayerEvent, Dict.get_cons]
  event_restatement_none := fun event dump accepted none => by
    cases accepted
    simp [dumpLayerEvent, Dict.get_cons, none]
  event_restatement := fun event dump block accepted carries => by
    cases accepted
    exact ⟨block, by simp [dumpLayerEvent, Dict.get_cons, carries], rfl, rfl, rfl, rfl⟩
  parse_dump := fun event dump stored layer accepted same _ _ => by
    cases accepted
    exact readEvent_dump event same
  audit_report_scalar := fun layer accepted => by
    simp only [acceptsLayer, Bool.and_eq_true, Bool.not_eq_true'] at accepted
    exact accepted.1.2

def absentTool (method : String) : SigningBackend where
  methodName := method
  available := false
  sign := fun _ _ => .error "tool not found"
  verify := fun _ _ _ => .ok ⟨false, some "tool not found"⟩

def sampleInstant : String := "2026-03-04T05:06:07+00:00"

def referenceEnv : Env where
  hash := sha256
  contracts := referenceContracts
  signers := ⟨absentTool "keypair", fun _ => absentTool "identity"⟩
  fromIsoFormat := fun text => if text = sampleInstant then some 1772600767000000 else none

def unsigned : Moment where
  now := 1772600767000000
  nowText := sampleInstant
  config := ⟨false, none, "cosign"⟩
  harness := ⟨"keypair", none, none⟩

def verifiedAdmin : LayerActor := ⟨"human", some "admin@example.com", some true, some "oidc", none, none⟩

def scannerAccount : LayerActor := ⟨"machine", some "scanner", some true, some "oidc", none, none⟩

def shellOf (signed : List (String × Json)) : Layer where
  metadata := Dict.ofList ([("audit_report", .str "report.json"), ("repository", .str "acme/widget"),
    ("created", .str sampleInstant), ("harness_version", .str "1.0")] ++ signed)
  events := []
  needsReview := []

theorem reachable_shell {signed : List (String × Json)}
    (accepted : initializeLayer referenceEnv "acme" none (shellOf signed) = .ok (shellOf signed)) :
    Reachable referenceEnv (shellOf signed) :=
  ⟨"acme", shellOf signed, shellOf signed, [], accepted, rfl⟩

def blockOf (target : String) (before after : Json) : Dict :=
  Dict.ofList [("target", .str target), ("reason", .str "data_error"), ("before", before), ("after", after),
    ("authority", .obj [("ticket", .str "SEC-1")])]

def restateCall (block : Dict) : Call :=
  .restate unsigned "acme" block "the digest was wrong" verifiedAdmin sampleInstant

def claimShell (hashes : List (String × Json)) : Layer := shellOf [("claim_hashes", .obj hashes)]

def claimBlock (before after : List (String × Json)) : Dict :=
  blockOf "claim_hashes" (.obj before) (.obj after)

def oneClaim : Layer := claimShell [("FIND-1", .str "a")]

def moveOne : Dict := claimBlock [("FIND-1", .str "a")] [("FIND-1", .str "c")]

def deleteOne : Dict := claimBlock [("FIND-1", .str "a")] [("FIND-1", .null)]

def patchClaims (hashes : List (String × Json)) : Call := .patch unsigned "acme" [("claim_hashes", .obj hashes)]

theorem oneClaim_reachable : Reachable referenceEnv oneClaim := reachable_shell rfl

theorem moveOne_accepted : (step referenceEnv oneClaim (restateCall moveOne)).isOk = true := by decide +kernel

end LedgerProof
