import TraustLedger.Restatements

namespace LedgerModel

open Python

/-- A layer document as storage holds it: `events` is a list of objects, `needs_review` any list. -/
structure Layer where
  metadata : Dict
  events : List Dict
  needsReview : List Json

structure LayerActor where
  kind : String
  identity : Option String
  identityVerified : Option Bool
  identityProvider : Option String
  employeeStatus : Option String
  ldapVerified : Option Bool
  deriving DecidableEq

structure LayerEvent where
  eventId : String
  findingRef : String
  recordedAt : String
  occurredAt : String
  sourceType : String
  sourceRef : String
  actor : LayerActor
  validity : Option String
  severity : Option String
  rationale : String
  restatement : Option Dict

structure ParsedEvent where
  eventId : String
  findingRef : String
  recordedAt : String
  occurredAt : Option String
  fingerprint : Option String
  sourceType : String
  actor : LayerActor
  validity : Option String
  resolution : Option String
  severity : Option String
  evidenceGrade : Option String
  autoAcceptTier : Option Bool
  rationale : Option String

structure ReadsBack (event : LayerEvent) (parsed : ParsedEvent) : Prop where
  eventId : parsed.eventId = event.eventId
  findingRef : parsed.findingRef = event.findingRef
  recordedAt : parsed.recordedAt = event.recordedAt
  sourceType : parsed.sourceType = event.sourceType
  actor : parsed.actor = event.actor
  validity : parsed.validity = event.validity
  severity : parsed.severity = event.severity
  evidenceGrade : parsed.evidenceGrade = none

def optionalText (value : Option String) : Json := value.elim .null .str

def optionalFlag (value : Option Bool) : Json := value.elim .null .bool

def ticketOf (block : Dict) : Json :=
  match block.get "authority" with
  | .obj authority => Dict.get authority "ticket"
  | _ => .null

/-- The contract package the ledger imports: its models' dumps and the layer schema. Only what the
    ledger reads back out of a dump is fixed, with or without a fingerprint the schema accepts, and that
    the schema has a digest, not a map, for the audit report; a model may refuse the values it is built from. -/
structure Contracts where
  actorToDict : LayerActor → Dict
  eventToDict : LayerEvent → Option Dict
  parseEvent : Dict → Option ParsedEvent
  validateLayer : Layer → Bool
  actor_kind : ∀ actor, (actorToDict actor).get "kind" = .str actor.kind
  actor_identity : ∀ actor, (actorToDict actor).get "identity" = optionalText actor.identity
  actor_verified : ∀ actor, (actorToDict actor).get "identity_verified" = optionalFlag actor.identityVerified
  actor_status : ∀ actor, (actorToDict actor).get "employee_status" = optionalText actor.employeeStatus
  actor_ldap : ∀ actor, (actorToDict actor).get "ldap_verified" = optionalFlag actor.ldapVerified
  event_id : ∀ event dump, eventToDict event = some dump → dump.get "event_id" = .str event.eventId
  event_finding_ref : ∀ event dump, eventToDict event = some dump →
    dump.get "finding_ref" = .str event.findingRef
  event_source : ∀ event dump, eventToDict event = some dump → ∃ source, dump.get "source" = .obj source ∧
    Dict.get source "type" = .str event.sourceType ∧ List.lookup "ref" source = some (.str event.sourceRef) ∧
    Dict.get source "actor" = .obj (actorToDict event.actor)
  event_disposition : ∀ event dump, eventToDict event = some dump → ∃ disposition,
    dump.get "disposition" = .obj disposition ∧
    Dict.get disposition "validity" = optionalText event.validity ∧ Dict.get disposition "resolution" = .null ∧
    (event.validity = none → event.severity = none → disposition = [])
  event_fingerprint : ∀ event dump, eventToDict event = some dump → dump.get "fingerprint" = .null
  event_restatement_none : ∀ event dump, eventToDict event = some dump → event.restatement = none →
    dump.get "restatement" = .null
  event_restatement : ∀ event dump block, eventToDict event = some dump → event.restatement = some block →
    ∃ stored, dump.get "restatement" = .obj stored ∧ Dict.get stored "target" = block.get "target" ∧
      Dict.get stored "before" = block.get "before" ∧ Dict.get stored "after" = block.get "after" ∧
      ticketOf stored = ticketOf block
  parse_dump : ∀ event dump stored layer, eventToDict event = some dump →
    (∀ key, key ≠ "fingerprint" → key ≠ "fingerprint_algo" → stored.lookup key = dump.lookup key) →
    stored ∈ layer.events → validateLayer layer = true → ∃ parsed, parseEvent stored = some parsed ∧
      ReadsBack event parsed
  audit_report_scalar : ∀ layer, validateLayer layer = true →
    (layer.metadata.get "audit_report_sha256").isObj = false

end LedgerModel
