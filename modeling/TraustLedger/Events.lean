import TraustLedger.Gates

namespace LedgerModel

open Hashing Python Runs

variable (H : HashFunction)

def algoVersion : String := "v3"

def orEmptyText (value : Json) : List Char := if value.truthy then chars (pyStr value) else []

def computeEventId (sourceRef findingRef validity resolution : Json) : String :=
  hexDigest H (utf8 (chars (pyStr sourceRef) ++ '|' :: chars (pyStr findingRef) ++
    '|' :: orEmptyText validity ++ '|' :: orEmptyText resolution))

def restatementRefDigestLen : Nat := 12

def datePrefixLen : Nat := 10

def restatementSourceRef (block : Dict) (identity recordedAt : String) : String :=
  let digest := hexChars (H.digest (dumps true (.obj block)))
  String.ofList (chars "restatement:" ++ (chars recordedAt).take datePrefixLen ++ ':' :: chars identity ++
    ':' :: digest.take restatementRefDigestLen)

def buildRestatementEvent (block : Dict) (rationale : String) (actor : LayerActor) (recordedAt : String)
    (findingRef : Json) : Outcome LayerEvent := do
  let identity := actor.identity.getD ""
  require (identity ≠ "") (.valueError "actor identity is required to build a restatement event")
  let sourceRef := restatementSourceRef H block identity recordedAt
  match findingRef with
  | .str ref => return {
      eventId := computeEventId H (.str sourceRef) (.str ref) .null .null
      findingRef := ref
      recordedAt := recordedAt
      occurredAt := recordedAt
      sourceType := "restatement"
      sourceRef := sourceRef
      actor := actor
      validity := none
      severity := none
      rationale := rationale
      restatement := some block }
  | _ => .error (.valueError "finding_ref: Input should be a valid string")

def interactiveRef (recordedAt suffix : String) : String :=
  String.ofList (chars "interactive:" ++ (chars recordedAt).take datePrefixLen ++ ':' :: chars suffix)

def validityForDecision (decision : String) : String :=
  if decision = "false_positive" ∨ decision = "override_false_positive" then "false_positive" else "confirmed"

def buildHumanEvent (findingRef decision rationale : String) (actor : LayerActor) (recordedAt : String) :
    Outcome LayerEvent := do
  let validity := validityForDecision decision
  let identity := actor.identity.getD ""
  require (identity ≠ "") (.valueError "actor identity is required to build a human event")
  let sourceRef := interactiveRef recordedAt identity
  return {
    eventId := computeEventId H (.str sourceRef) (.str findingRef) (.str validity) .null
    findingRef := findingRef
    recordedAt := recordedAt
    occurredAt := recordedAt
    sourceType := "interactive"
    sourceRef := sourceRef
    actor := actor
    validity := some validity
    severity := none
    rationale := rationale
    restatement := none }

def buildSeverityEvent (findingRef level rationale : String) (actor : LayerActor) (recordedAt : String) :
    LayerEvent :=
  let sourceRef := interactiveRef recordedAt ("severity:" ++ level)
  { eventId := computeEventId H (.str sourceRef) (.str findingRef) .null .null
    findingRef := findingRef
    recordedAt := recordedAt
    occurredAt := recordedAt
    sourceType := "interactive"
    sourceRef := sourceRef
    actor := actor
    validity := none
    severity := some level
    rationale := rationale
    restatement := none }

/-- The event and whether it was stamped. The index maps a `finding_ref` to its fingerprint. -/
def attachIdentity (index : List (Json × Json)) (event : Dict) : Dict × Bool :=
  if (event.get "fingerprint").truthy then (event, false)
  else
    let fingerprint := ((index.find? fun entry => Json.pyEq entry.1 (event.get "finding_ref")).map
      Prod.snd).getD .null
    if fingerprint.truthy then
      ((event.set "fingerprint" fingerprint).set "fingerprint_algo" (.str algoVersion), true)
    else (event, false)

end LedgerModel
