import TraustLedger.Auth.Callers
import TraustLedger.Auth.Credentials

namespace LedgerModel

open Python Runs GuardedCalls

variable {PrivateKey Key : Type}

abbrev TokenVerifierPort (PrivateKey Key : Type) := AuthEnv PrivateKey Key → Json → Authed TokenActor

def TokenVerifier.port (verifier : TokenVerifier Key) : TokenVerifierPort PrivateKey Key :=
  fun env token => ResolvedCredential.verify env ⟨token, verifier, ""⟩

structure LedgerClient (PrivateKey Key : Type) where
  token : Json
  verifier : Option (TokenVerifierPort PrivateKey Key)
  directory : Option ScriptDirectory

/-- An explicit token wins; then the chain of the environment, whose verifier gives way to an explicit one. -/
def resolveIdentity (env : AuthEnv PrivateKey Key) (token : Option String)
    (verifier : Option (TokenVerifierPort PrivateKey Key)) :
    Cli PrivateKey Key (Json × Option (TokenVerifierPort PrivateKey Key)) :=
  match token with
  | some token => do
    Call.ofExcept (require (strip token ≠ "") (.ledger "token is required"))
    return (.str (strip token), verifier)
  | none => do
    let credential ← Call.catching (do
      let credential ← resolveAuth env
      return some credential) unlessUnresolved
    match credential with
    | some credential => return (credential.token, some (verifier.getD credential.verifier.port))
    | none =>
      let raw := strip (env.get "LAAS_TOKEN")
      Call.ofExcept (require (raw ≠ "") (.ledger ("authentication required — set LAAS_TOKEN, or run " ++
        "`ledger auth login` / `ledger auth local --identity <you>`")))
      return (.str raw, verifier)

def principal (actor : TokenActor) : String × String × String × String :=
  (actor.kind, lowered (strip (actor.identity.getD "")), actor.identityIssuer.getD "", actor.identitySubject.getD "")

def unresolved {α : Type} : AuthFailure → Option (Authed α)
  | .resolution detail => some (.error (.ledger detail))
  | _ => none

def unverified : AuthFailure → AuthFailure
  | .verification detail | .identityClaims detail => .ledger ("token verification failed: " ++ detail)
  | failure => failure

def dismissed : AuthFailure → AuthFailure
  | .directoryRefused identity status => .ledger ("directory cross-check refused " ++ pyRepr (.str identity) ++
      ": status=" ++ status)
  | failure => failure

namespace LedgerClient

variable (client : LedgerClient PrivateKey Key) (env : AuthEnv PrivateKey Key)

def build (token : Option String) (verifier : Option (TokenVerifierPort PrivateKey Key))
    (directory : Option ScriptDirectory) : Cli PrivateKey Key (LedgerClient PrivateKey Key) := do
  let (token, verifier) ← resolveIdentity env token verifier
  return ⟨token, verifier, directory⟩

def verifierOf : Cli PrivateKey Key (TokenVerifierPort PrivateKey Key) :=
  match client.verifier, client.token with
  | some port, _ => return port
  | none, .str token => do
    let verifier ← verifierForToken env token
    return verifier.port
  | none, _ => do
    let verifier ← Call.ofExcept (buildOidcVerifier env .null)
    return verifier.port

def actor : Cli PrivateKey Key TokenActor := do
  let port ← Call.catching (client.verifierOf env) unresolved
  let verified ← Call.ofExcept ((port env client.token).mapError unverified)
  Call.ofExcept ((applyDirectory verified client.directory).mapError dismissed)

def notTheCaller (named verified : TokenActor) : String :=
  "actor " ++ pyRepr (optionalText named.identity) ++ " does not match the token-verified caller " ++
    pyRepr (optionalText verified.identity) ++ " — an event is recorded as the caller who authenticated, never as " ++
    "an identity passed in"

def caller (named : Option TokenActor) : Cli PrivateKey Key TokenActor := do
  let verified ← client.actor env
  match named with
  | none => return verified
  | some named =>
    Call.ofExcept (require (principal named = principal verified) (.ledger (notTheCaller named verified)))
    return verified

end LedgerClient

inductive Operation where
  | sign (layerId : String)
  | patchMetadata (layerId : String) (updates : Dict)
  | stampEventIdentities (layerId : String) (fingerprints : List (String × String))
  | submit (layerId : String) (events needsReview : List Dict)
  | resolve (layerId : String) (key : Option Json) (decision note : String)
  | countersign (layerId findingRef rationale recordedAt : String) (decision severity : Option String)
      (actor : Option TokenActor)
  | restate (layerId : String) (restatement : Dict) (rationale : String) (recordedAt findingRef : Option String)
      (actor : Option TokenActor)

def countersignKind (severity : Option String) : String := if severity.isSome then "severity" else "countersign"

def countersignEvent (layerId findingRef rationale recordedAt : String) (decision severity : Option String) : Dict :=
  Dict.ofList [("layer_id", .str layerId), ("finding_ref", .str findingRef), ("rationale", .str rationale),
    ("recorded_at", .str recordedAt), match severity with
      | some level => ("severity", .str level)
      | none => ("decision", optionalText decision)]

structure ClientUse (PrivateKey Key : Type) where
  client : LedgerClient PrivateKey Key
  env : AuthEnv PrivateKey Key
  home : Home PrivateKey Key
  moment : Moment
  operation : Operation

namespace ClientUse

variable (use : ClientUse PrivateKey Key)

/-- The call an operation makes. `resolve` alone asks for no verified actor. -/
def call : Cli PrivateKey Key LedgerModel.Call :=
  match use.operation with
  | .sign layerId => do
    let _ ← use.client.actor use.env
    return .sign use.moment layerId
  | .patchMetadata layerId updates => do
    let _ ← use.client.actor use.env
    return .patch use.moment layerId updates
  | .stampEventIdentities layerId fingerprints => do
    let _ ← use.client.actor use.env
    return .stampIdentities use.moment layerId fingerprints
  | .submit layerId events needsReview => do
    let actor ← use.client.actor use.env
    return .submitBatch use.moment layerId ⟨"ledger-client:" ++ layerId, use.moment.nowText, events, needsReview⟩
      actor.toLayerActor
  | .resolve layerId key decision note => return .resolve use.moment layerId key decision note
  | .countersign layerId findingRef rationale recordedAt decision severity named => do
    let actor ← use.client.caller use.env named
    return .submitEvent use.moment (countersignKind severity)
      (countersignEvent layerId findingRef rationale recordedAt decision severity) actor.toLayerActor
  | .restate layerId restatement rationale recordedAt findingRef named => do
    let actor ← use.client.caller use.env named
    return .restate use.moment layerId (restatedBlock restatement findingRef) rationale actor.toLayerActor
      (if recordedAt.getD "" ≠ "" then recordedAt.getD "" else use.moment.nowText)

end ClientUse

inductive Access (PrivateKey Key : Type) where
  | rest (exchange : Exchange PrivateKey Key)
  | sdk (use : ClientUse PrivateKey Key)

def grantAccess (ledger : Env) (service : Service Key) (layer : Layer) : Access PrivateKey Key → Authed Layer
  | .rest exchange => serve ledger service layer exchange
  | .sdk use => do
    let call ← use.call.result use.home
    (asLedgerError (step ledger layer call)).mapError .gate

end LedgerModel
