import TraustLedger.Gates
import Mathlib.Data.List.Sort

namespace LedgerModel

open Python Runs

inductive EvidenceClass where
  | execution
  | human
  | machine
  deriving DecidableEq

def eventClass (event : ParsedEvent) : EvidenceClass :=
  if event.evidenceGrade = some "E2" ∨ event.evidenceGrade = some "E3" then .machine
  else if event.actor.kind = "human" then .human
  else if event.sourceType ∈ execSourceTypes then .execution
  else .machine

def resolutionTier (sourceType : String) : Nat :=
  if sourceType = "verification_report" then 0 else if sourceType = "jira" then 1 else 2

inductive Assurance where
  | executionProven
  | humanReviewed
  | machineVerified
  | claimed
  deriving DecidableEq

structure SeverityOverride where
  severity : String
  setBy : String
  setAt : String
  rationale : Option String

structure Disposition where
  validity : Json
  resolution : String
  assurance : Assurance
  lastUpdated : String
  events : List String
  severityOverride : Option SeverityOverride
  conflict : Bool
  refutedAwaitingSignoff : Bool
  fpOverridden : Bool
  fpReassertionBlocked : Bool

def coerce (contracts : Contracts) (event : Dict) : Outcome ParsedEvent :=
  match contracts.parseEvent event with
  | some parsed => .ok parsed
  | none => .error (.valueError "validation error for LayerEvent")

def eventDt (fromIsoFormat : String → Option Int) (event : ParsedEvent) : Outcome Int :=
  match fromIsoFormat event.recordedAt with
  | some instant => .ok instant
  | none => .error (.corruptStoredEvent event.eventId "recorded_at" event.recordedAt)

abbrev Dated := Int × ParsedEvent

def asserts (validity : String) (event : Dated) : Bool := event.2.validity == some validity

def speaks (text : Option String) : Bool := text.getD "" != ""

def staticValidity (base : Json) (human machine : List Dated) : Json :=
  match human.getLast?, machine.getLast? with
  | some decision, _ => optionalText decision.2.validity
  | none, some report =>
    if asserts "false_positive" report = true ∧ report.2.autoAcceptTier.getD false = false then base
    else optionalText report.2.validity
  | none, none => base

def executedValidity (static : Json) (exec human : List Dated) : Json × Bool × Bool :=
  match (exec.filter fun event => !asserts "false_positive" event).getLast? with
  | none => (static, false, false)
  | some proof =>
    if asserts "confirmed" proof then
      let refuting := human.filter (asserts "false_positive")
      let overridden := refuting.any fun event => decide (event.1 ≤ proof.1)
      let post := refuting.filter fun event => decide (proof.1 < event.1)
      let signers := ((post.filter fun event => eventActorVerified event.2.actor).map
        fun event => event.2.actor.identity).dedup
      if 2 ≤ signers.length then (.str "false_positive", false, false)
      else (optionalText proof.2.validity, overridden, !post.isEmpty)
    else (optionalText proof.2.validity, false, false)

def bestResolution (events : List Dated) : String :=
  let best := (events.map fun event => resolutionTier event.2.sourceType).min?.getD 2
  match (events.filter fun event => resolutionTier event.2.sourceType == best).getLast? with
  | some event => event.2.resolution.getD ""
  | none => "open"

def overrideOf (event : ParsedEvent) : SeverityOverride where
  severity := event.severity.getD ""
  setBy := if speaks event.actor.identity then event.actor.identity.getD "" else "?"
  setAt := if speaks event.occurredAt then event.occurredAt.getD "" else event.recordedAt
  rationale := if speaks event.rationale then event.rationale else none

def mergeDisposition (finding : Dict) (evts : List Dated) (generatedAt : String) : Disposition :=
  let base := finding.getD "validation_status" (.str "not_verified")
  let validityEvents := evts.filter fun event => speaks event.2.validity
  let ofClass (cls : EvidenceClass) := validityEvents.filter fun event => eventClass event.2 == cls
  let exec := ofClass .execution
  let human := ofClass .human
  let machine := ofClass .machine
  let (validity, overridden, blocked) := executedValidity (staticValidity base human machine) exec human
  let conflict := validityEvents.any (asserts "confirmed") && validityEvents.any (asserts "false_positive")
  let refuted := validityEvents.any fun event => asserts "false_positive" event &&
    event.2.actor.kind == "machine" && !event.2.autoAcceptTier.getD false
  let severities := evts.filter fun event => speaks event.2.severity && eventClass event.2 == .human
  { validity := validity
    resolution := bestResolution (evts.filter fun event => speaks event.2.resolution)
    assurance := if !exec.isEmpty then .executionProven else if !human.isEmpty then .humanReviewed
      else if !machine.isEmpty then .machineVerified else .claimed
    lastUpdated := (evts.getLast?.map fun event => event.2.recordedAt).getD generatedAt
    events := evts.map fun event => event.2.eventId
    severityOverride := severities.getLast?.map fun event => overrideOf event.2
    conflict := conflict
    refutedAwaitingSignoff := refuted && decide (validity ≠ .str "false_positive") && human.isEmpty && !conflict
    fpOverridden := overridden
    fpReassertionBlocked := blocked }

def dated (fromIsoFormat : String → Option Int) (event : ParsedEvent) : Outcome Dated := do
  let instant ← eventDt fromIsoFormat event
  return (instant, event)

/-- `sorted` is stable, as inserting in front of equal instants is. -/
def deriveDisposition (contracts : Contracts) (fromIsoFormat : String → Option Int) (finding : Dict)
    (events : List Dict) (generatedAt : String) : Outcome Disposition := do
  let parsed ← events.mapM (coerce contracts)
  let evts ← parsed.mapM (dated fromIsoFormat)
  return mergeDisposition finding (evts.insertionSort fun left right => left.1 ≤ right.1) generatedAt

end LedgerModel
