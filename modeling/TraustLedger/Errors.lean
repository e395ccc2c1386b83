import TraustLedger.Library.JsonText
import TraustLedger.Library.Runs

namespace LedgerModel

open Python

inductive Failure where
  | attributeError
  | typeError
  | keyError (key : String)
  | overflowError
  | valueError (detail : String)
  | runtimeError (detail : String)
  | osError (detail : String)
  | layerNotInitialized (detail : String)
  | invalidLayerDocument (detail : String)
  | corruptStoredLayer (detail : String)
  | layerConflict (detail : String)
  | layerStorage (detail : String)
  | integrityError
  | ledgerError (detail : String)
  | commandFailed (detail : String)
  | validation (detail : String)
  | notFound (detail : String)
  | identityRequired
  | identityUnverified
  | twoPersonViolated
  | machineDisposition
  | rationaleTooShort (minLength : Nat)
  | timestampFuture (hours : Nat)
  | invalidEpoch
  | signingRequired
  | signingFailed (layerId : String)
  | missingLayerId
  | missingSeverity
  | missingDecisionOrVerdict
  | decisionVerdictConflict
  | unknownDecision (decision : String)
  | missingFindingRef
  | missingRecordedAt
  | invalidLayerId
  | corruptStoredEvent (eventId field value : String)
  | eventIdMismatch (supplied : Json) (canonical : String)
  | restatementAuthority (detail : String)
  | nothingToRestate (target : String)
  | retiredValueRestated (target keys : String)
  | staleRestatement (target before actual : Json)
  | unexplainedMetadataChange (field : String)
  deriving DecidableEq

def Failure.detail : Failure → String
  | .attributeError => "object has no attribute 'get'"
  | .typeError => "int() argument must be a string, a bytes-like object or a real number"
  | .keyError key => pyRepr (.str key)
  | .overflowError => "date value out of range"
  | .valueError detail => detail
  | .runtimeError detail => detail
  | .osError detail => detail
  | .layerNotInitialized detail => detail
  | .invalidLayerDocument detail => detail
  | .corruptStoredLayer detail => detail
  | .layerConflict detail => detail
  | .layerStorage detail => detail
  | .integrityError => "UNIQUE constraint failed"
  | .ledgerError detail => detail
  | .commandFailed detail => detail
  | .validation detail => detail
  | .notFound detail => detail
  | .identityRequired => "human identity required for this event kind"
  | .identityUnverified => "verified identity required for human false_positive"
  | .twoPersonViolated => "two-person rule: same human cannot satisfy both signatures"
  | .machineDisposition => "machine actors cannot submit disposition events"
  | .rationaleTooShort minLength => "rationale must be at least " ++ toString minLength ++ " characters"
  | .timestampFuture hours => "recorded_at cannot be more than " ++ toString hours ++ "h in the future"
  | .invalidEpoch => "metadata.merkle_epoch is invalid for the current events array"
  | .signingRequired =>
    "signing is required but no signer is configured — set LAAS_SIGNING_KEY_PATH (keypair) or " ++
      "configure sigstore-oidc; nothing was written"
  | .signingFailed layerId =>
    "signing failed for " ++ layerId ++ " — set LAAS_SIGNING_KEY_PATH and COSIGN_PASSWORD (keypair), " ++
      "or configure sigstore-oidc; nothing was written (atomic rollback)"
  | .missingLayerId => "layer_id is required"
  | .missingSeverity => "severity level is required for severity events"
  | .missingDecisionOrVerdict => "decision or verdict is required for countersign events"
  | .decisionVerdictConflict => "decision and verdict both present but disagree; provide one, not both"
  | .unknownDecision decision => "unknown decision value: " ++ decision
  | .missingFindingRef => "finding_ref (or finding_fingerprint) is required"
  | .missingRecordedAt => "recorded_at is required in event payload"
  | .invalidLayerId => "layer_id contains invalid characters"
  | .corruptStoredEvent eventId field value =>
    "event " ++ eventId ++ " has " ++ field ++ "=" ++ pyRepr (.str value) ++ ", which is not RFC 3339"
  | .eventIdMismatch supplied canonical =>
    "event_id mismatch: supplied '" ++ pyStr supplied ++ "' != canonical '" ++ canonical ++ "'"
  | .restatementAuthority detail => detail
  | .nothingToRestate target =>
    "metadata." ++ target ++ " holds no value — there is nothing to restate. " ++
      "Setting it the first time destroys no prior value and needs no ticket; " ++
      "write it through the ordinary path instead"
  | .retiredValueRestated target keys =>
    "restatement of " ++ target ++ " restores a value the chain already retired (" ++ keys ++ ") — " ++
      "reversing an earlier restatement is its own decision and needs its own reason, " ++
      "not a rollback to a superseded value"
  | .staleRestatement target before actual =>
    "restatement for " ++ pyStr target ++ " does not match the stored value — `before` says " ++
      pyRepr before ++ ", the layer holds " ++ pyRepr actual ++
      "; re-read the layer and recompute the restatement"
  | .unexplainedMetadataChange field =>
    "metadata." ++ field ++ " changed without a restatement event recording it — " ++
      "the value is inside the signature, so rewriting it silently destroys " ++
      "the only evidence of what it was; append a restatement instead"

abbrev Outcome := Except Failure

end LedgerModel
