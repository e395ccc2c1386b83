import TraustLedger.Layer
import TraustLedger.Integrity.Ledger

namespace LedgerModel

open Python Runs

def rationaleMinLength : Nat := 10

def timestampFutureLimitHours : Nat := 24

inductive EventKind where
  | countersign
  | severity
  | regression
  | impact
  | vulnScan
  deriving DecidableEq

def EventKind.value : EventKind → String
  | .countersign => "countersign"
  | .severity => "severity"
  | .regression => "regression"
  | .impact => "impact"
  | .vulnScan => "vuln_scan"

def EventKind.isBirth : EventKind → Bool
  | .regression | .impact | .vulnScan => true
  | .countersign | .severity => false

def named (text : Option String) : Bool := strip (text.getD "") != ""

def isVerified (actor : LayerActor) : Bool :=
  match actor.identityVerified, actor.employeeStatus with
  | some verified, _ => verified
  | none, some status => status == "active"
  | none, none => actor.ldapVerified.getD false

def requireVerifiedHuman (actor : LayerActor) : Outcome Unit := do
  require (actor.kind = "human" ∧ named actor.identity = true) .identityRequired
  require (isVerified actor = true) .identityUnverified

def rejectMachineDisposition (actor disposition : Dict) : Outcome Unit :=
  require (actor.get "kind" ≠ .str "machine" ∨ disposition = []) .machineDisposition

def rejectMachineHumanLane (actor : LayerActor) (kind : EventKind) : Outcome Unit :=
  require (kind.isBirth = true ∨ actor.kind ≠ "machine") .machineDisposition

def requireHumanIdentity (actor : LayerActor) (kind : EventKind) : Outcome Unit :=
  require (kind.isBirth = true ∨ actor.identity.getD "" ≠ "") .identityRequired

def requireVerifiedForFalsePositive (actor : LayerActor) (validity : String) : Outcome Unit :=
  require (validity ≠ "false_positive" ∨ actor.kind ≠ "human" ∨
    (actor.identity.getD "" ≠ "" ∧ isVerified actor = true)) .identityUnverified

def requireRationaleLength (rationale : String) : Outcome Unit :=
  require (rationaleMinLength ≤ (chars rationale).length) (.rationaleTooShort rationaleMinLength)

def execSourceTypes : List String := ["validation_report", "verification_report"]

def matchesFinding (findingRef : String) (event : ParsedEvent) : Bool :=
  event.findingRef == findingRef || (event.fingerprint.getD "" != "" && event.fingerprint == some findingRef)

def eventActorVerified (actor : LayerActor) : Bool :=
  match actor.identityVerified with
  | some verified => verified
  | none => actor.ldapVerified.getD false

def requireTwoPerson (contracts : Contracts) (layer : Layer) (findingRef actorIdentity incomingValidity : String) :
    Outcome Unit := do
  if incomingValidity ≠ "false_positive" then return ()
  let parsed := layer.events.map contracts.parseEvent
  let matching := parsed.filterMap fun event => event.filter (matchesFinding findingRef)
  let unparseable := parsed.any Option.isNone
  let execConfirmed := matching.any fun event =>
    event.sourceType ∈ execSourceTypes && event.validity == some "confirmed"
  if execConfirmed = false ∧ unparseable = false then return ()
  require (unparseable = false) .twoPersonViolated
  require (matching.all (fun event => !(event.validity == some "false_positive" && event.actor.kind == "human" &&
    eventActorVerified event.actor && event.actor.identity.getD "" != "" &&
    event.actor.identity == some actorIdentity)) = true) .twoPersonViolated

def datetimeMin : Int := -62135596800000000

def datetimeMax : Int := 253402300799999999

/-- Instants are microseconds of UTC; `fromIsoFormat` is the standard library's parser. A local time whose instant
    lies outside the years a `datetime` holds is parsed, and fails in `astimezone`. -/
def parseRecordedAt (fromIsoFormat : String → Option Int) (recordedAt : String) : Outcome Int :=
  match fromIsoFormat recordedAt with
  | none => .error (.valueError ("Invalid isoformat string: " ++ pyRepr (.str recordedAt)))
  | some parsed => do
    require (datetimeMin ≤ parsed ∧ parsed ≤ datetimeMax) .overflowError
    return parsed

def requireTimestampBounds (fromIsoFormat : String → Option Int) (now : Int) (recordedAt : String) :
    Outcome Unit := do
  let parsed ← parseRecordedAt fromIsoFormat recordedAt
  require (parsed ≤ now + timestampFutureLimitHours * 3600000000) (.timestampFuture timestampFutureLimitHours)

def requireValidEpoch (layer : Layer) : Outcome Unit := do
  if layer.events.isEmpty then return ()
  let rawEpoch := layer.metadata.get "merkle_epoch"
  require (rawEpoch ≠ .null) .invalidEpoch
  let epoch ← toInt rawEpoch
  require (0 ≤ epoch ∧ epoch ≤ layer.events.length) .invalidEpoch

def ticketed (ticket : Json) : Bool :=
  match ticket with
  | .str text => strip text != ""
  | _ => false

def requireRestatementAuthority (block : Dict) : Outcome Unit := do
  require ((block.get "target").truthy = true) (.restatementAuthority "target required")
  require (ticketed (ticketOf block) = true) (.restatementAuthority
    ("authority.ticket is required — an unattributed restatement is indistinguishable from the " ++
      "rewrite this path exists to prevent"))
  require (block.has "after" = true) (.restatementAuthority "after is required")
  require (block.has "before" = false ∨ Json.pyEq (block.get "before") (block.get "after") = false)
    (.restatementAuthority ("restatement for " ++ pyStr (block.get "target") ++
      " changes nothing — before == after"))

def joined (keys : List String) : String := String.intercalate ", " keys

def requireSomethingToRestate (block : Dict) (actual : Json) : Outcome Unit :=
  let target := pyStr (block.get "target")
  match block.get "before", actual with
  | .obj before, .obj held =>
    let absent := (before.map Prod.fst).filter fun key => !Dict.has held key
    require (absent = []) (.nothingToRestate (target ++ "[" ++ joined absent ++ "]"))
  | .obj _, _ => .error (.nothingToRestate target)
  | _, _ => require (isBlank actual = false) (.nothingToRestate target)

def requireFreshRestatement (block : Dict) (actual : Json) : Outcome Unit :=
  match block.get "before", actual with
  | .obj before, .obj held =>
    let stale := (Dict.items before).filter fun entry => !Json.pyEq (Dict.get held entry.1) entry.2
    require (stale = []) (.staleRestatement (block.get "target") (.obj stale)
      (.obj (stale.map fun entry => (entry.1, Dict.get held entry.1))))
  | before, _ => require (Json.pyEq before actual = true) (.staleRestatement (block.get "target") before actual)

def requireMonotonicRestatement (block : Dict) (events : List Dict) : Outcome Unit := do
  let target := pyStr (block.get "target")
  match block.get "after" with
  | .obj after =>
    let replayed ← (Dict.items after).filterM fun entry => do
      let retired ← retiredValues events target (some entry.1)
      return Json.pyIn entry.2 retired
    require (replayed = []) (.retiredValueRestated target (joined (replayed.map Prod.fst)))
  | after =>
    let retired ← retiredValues events target none
    require (Json.pyIn after retired = false) (.retiredValueRestated target "(whole value)")

end LedgerModel
