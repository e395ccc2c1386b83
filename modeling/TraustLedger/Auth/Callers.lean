import TraustLedger.Auth.Tokens
import TraustLedger.System

namespace LedgerModel

open Python Runs

section Directory

inductive CommandRun where
  | failed
  | ended (code : Int) (stdout : String)

structure ScriptDirectory where
  command : List String
  run : List String → CommandRun

def nonSpace (c : Char) : Bool := !isSpace c

def wordAfter (words : List Char) (line : List Char) : Option (List Char × List Char) :=
  match List.isPrefixOf? words line with
  | none => none
  | some rest =>
    if rest.takeWhile nonSpace = [] then none else some (rest.takeWhile nonSpace, rest.dropWhile nonSpace)

/-- `^RESULT uid=(?P<uid>\S+) status=(?P<status>\S+)(?: auth=(?P<auth>\S+))?$` on one line. -/
def resultLine (line : List Char) : Option (List Char × List Char) :=
  match wordAfter (chars "RESULT uid=") line with
  | none => none
  | some (uid, rest) =>
    match wordAfter (chars " status=") rest with
    | none => none
    | some (status, []) => some (uid, status)
    | some (status, rest) =>
      match wordAfter (chars " auth=") rest with
      | some (_, []) => some (uid, status)
      | _ => none

def reportedStatus (stdout : String) (uid : List Char) : Option (List Char) :=
  ((chars stdout).splitOn '\n').findSome? fun line =>
    (resultLine line).bind fun found => if found.1 = uid then some found.2 else none

def statusActive : String := "active"

def statusUnavailable : String := "unavailable"

namespace ScriptDirectory

variable (directory : ScriptDirectory)

def isActive (identity : String) : String :=
  let identity := strip identity
  if identity = "" ∨ (chars identity).any isSpace = true then "not_found"
  else
    match directory.run (directory.command ++ [identity]) with
    | .failed => statusUnavailable
    | .ended code stdout =>
      if code ≠ 0 then statusUnavailable
      else ((reportedStatus stdout (chars identity)).map String.ofList).getD statusUnavailable

end ScriptDirectory

def applyDirectory (actor : TokenActor) : Option ScriptDirectory → Authed TokenActor
  | none => return actor
  | some directory =>
    if actor.kind ≠ "human" ∨ actor.identity.getD "" = "" then return actor
    else do
      let status := directory.isActive (actor.identity.getD "")
      require (status = statusActive) (.directoryRefused (actor.identity.getD "") status)
      return { actor with employeeStatus := some status }

end Directory

section Issuers

variable {PrivateKey Key : Type} (env : AuthEnv PrivateKey Key)

structure TrustEntry (Key : Type) where
  issuer : Json
  verifier : TokenVerifier Key

structure IdentityConfig where
  oidcTrust : String
  oidcJwksUrl : Option String
  oidcIssuer : Option String
  oidcAudience : Option String
  oidcMachineClaim : String
  oidcIdentityClaim : String
  adminIdentities : List String
  restatementMinApprovers : Int

def settingJson (setting : Option String) : Json := setting.elim .null .str

def trustEntry (config : IdentityConfig) (jwksUrl issuer audience : Json) : Authed (TrustEntry Key) := do
  let verifier ← TokenVerifier.build {
    jwksUrl := jwksUrl
    issuer := issuer
    audience := audience
    machineClaim := config.oidcMachineClaim
    identityClaim := config.oidcIdentityClaim
  }
  return ⟨issuer, verifier⟩

def listedEntry (config : IdentityConfig) (item : Json × Nat) : Authed (TrustEntry Key) :=
  let malformed : AuthFailure :=
    .runtimeError ("LAAS_OIDC_TRUST[" ++ toString item.2 ++ "] must be an object with a jwks_url")
  match item.1 with
  | .obj fields => do
    require ((Dict.get fields "jwks_url").truthy = true) malformed
    trustEntry config (Dict.get fields "jwks_url") (Dict.get fields "issuer") (Dict.get fields "audience")
  | _ => .error malformed

def isHashable : Json → Bool
  | .arr _ | .obj _ => false
  | _ => true

/-- The adapter's constructor: an issuer that cannot be a key of a dict ends the start of the service. -/
def oidcAdapter (trust : List (TrustEntry Key)) : Authed (List (TrustEntry Key)) := do
  require (trust ≠ []) (.runtimeError "OIDC adapter requires at least one trusted issuer")
  require (∀ entry ∈ trust, entry.issuer.truthy = true → isHashable entry.issuer = true) .typeError
  return trust

/-- `loads` is `json.loads`, with the text of its error. -/
def fromConfig (loads : String → Except String Json) (config : IdentityConfig) : Authed (List (TrustEntry Key)) := do
  let raw := strip config.oidcTrust
  if raw = "" then
    require (config.oidcJwksUrl.getD "" ≠ "") (.runtimeError "identity_provider=oidc requires LAAS_OIDC_JWKS_URL")
    let entry ← trustEntry config (settingJson config.oidcJwksUrl) (settingJson config.oidcIssuer)
      (settingJson config.oidcAudience)
    oidcAdapter [entry]
  else
    let items ← (loads raw).mapError fun detail => .runtimeError ("LAAS_OIDC_TRUST is not valid JSON: " ++ detail)
    match items with
    | .arr (first :: rest) =>
      let trust ← (first :: rest).zipIdx.mapM (listedEntry config)
      require (trust.length ≤ 1 ∨ ∀ entry ∈ trust, entry.issuer.truthy = true)
        (.runtimeError "every LAAS_OIDC_TRUST entry must set 'issuer' when more than one is configured")
      oidcAdapter trust
    | _ => .error (.runtimeError "LAAS_OIDC_TRUST must be a non-empty JSON array")

/-- `_by_issuer.get(iss)`: of entries with one issuer the last is kept. -/
def byIssuer (trust : List (TrustEntry Key)) (iss : Json) : Option (TrustEntry Key) :=
  (trust.filter fun entry => entry.issuer.truthy && Json.pyEq entry.issuer iss).getLast?

def namedEntry (trust : List (TrustEntry Key)) (token : String) : Authed (TrustEntry Key) :=
  match env.jwt.peek token with
  | none => .error .invalidAuth
  | some claims => do
    require (isHashable (claims.get "iss") = true) .typeError
    match byIssuer trust (claims.get "iss") with
    | none => .error .invalidAuth
    | some entry => return entry

/-- A sole entry without an issuer takes any token; otherwise the token's own `iss` selects. -/
def entryForToken (trust : List (TrustEntry Key)) (token : String) : Authed (TrustEntry Key) :=
  match trust with
  | [entry] => if entry.issuer = .null then return entry else namedEntry env trust token
  | _ => namedEntry env trust token

def unverifiable : AuthFailure → AuthFailure
  | .verification _ | .identityClaims _ => .invalidAuth
  | failure => failure

def verifyToken (trust : List (TrustEntry Key)) (token : String) : Authed TokenActor := do
  let entry ← entryForToken env trust token
  (entry.verifier.verify env token).mapError unverifiable

def extractBearerToken (authorization : Option String) : Authed String := do
  require ((chars "bearer ").isPrefixOf (asciiLower (chars (authorization.getD ""))) = true) .missingAuth
  return String.ofList ((chars (authorization.getD "")).drop 7)

def refusedByDirectory : AuthFailure → AuthFailure
  | .directoryRefused _ _ => .invalidAuth
  | failure => failure

def resolveActor (trust : List (TrustEntry Key)) (directory : Option ScriptDirectory) (authorization : Option String) :
    Authed TokenActor := do
  let token ← extractBearerToken authorization
  let actor ← verifyToken env trust token
  (applyDirectory actor directory).mapError refusedByDirectory

end Issuers

section Restating

def requireAdmin (actor : LayerActor) (adminIdentities : List String) : Authed Unit := do
  (requireVerifiedHuman actor).mapError .gate
  require (lowered (strip (actor.identity.getD "")) ∈
    (adminIdentities.filter fun admin => strip admin != "").map fun admin => lowered (strip admin))
    (.notAnAdmin actor.identity)

def approvers (block : Dict) : List String :=
  match block.get "authority" with
  | .obj authority => match Dict.get authority "approved_by" with
    | .str raw => ((((chars raw).splitOn ',').map stripChars).filter (· ≠ [])).map fun name =>
        String.ofList (asciiLower name)
    | _ => []
  | _ => []

def independentApprovers (block : Dict) (actor : LayerActor) : List String :=
  ((approvers block).filter fun name => name ≠ lowered (strip (actor.identity.getD ""))).dedup

def requireRestatementApprovers (block : Dict) (actor : LayerActor) (minimum : Int) : Authed Unit :=
  require (minimum ≤ 0 ∨ minimum ≤ (independentApprovers block actor).length)
    (.insufficientApprovers minimum (independentApprovers block actor).length)

def authorizeRestatement (actor : LayerActor) (block : Dict) (config : IdentityConfig) : Authed Unit := do
  requireAdmin actor config.adminIdentities
  requireRestatementApprovers block actor config.restatementMinApprovers

inductive RestRequest where
  | restate (layerId : String) (restatement : Dict) (findingRef : Option String) (rationale : String)
      (recordedAt : Option String)
  | event (kind : String) (event : Dict)
  | submit (layerId : String) (body : BatchSubmitRequest)
  | sign (layerId : String) (rekor : Bool)
  | stamp (layerId : String) (fingerprints : List (String × String))
  | resolve (layerId : String) (key : Option Json) (decision note : String)

structure Exchange (PrivateKey Key : Type) where
  env : AuthEnv PrivateKey Key
  moment : Moment
  authorization : Option String
  request : RestRequest

def restatedBlock (restatement : Dict) (findingRef : Option String) : Dict :=
  if findingRef.getD "" ≠ "" then restatement.set "finding_ref" (.str (findingRef.getD "")) else restatement

variable {PrivateKey Key : Type}

def routed (config : IdentityConfig) (moment : Moment) (actor : LayerActor) : RestRequest → Authed Call
  | .restate layerId restatement findingRef rationale recordedAt => do
    authorizeRestatement actor restatement config
    return .restate moment layerId (restatedBlock restatement findingRef) rationale actor
      (if recordedAt.getD "" ≠ "" then recordedAt.getD "" else moment.nowText)
  | .event kind event => return .submitEvent moment kind event actor
  | .submit layerId body => return .submitBatch moment layerId body actor
  | .sign layerId rekor => return .signEndpoint moment layerId rekor
  | .stamp layerId fingerprints => return .stampIdentities moment layerId fingerprints
  | .resolve layerId key decision note => return .resolve moment layerId key decision note

structure Service (Key : Type) where
  config : IdentityConfig
  trust : List (TrustEntry Key)
  directory : Option ScriptDirectory

def serve (ledger : Env) (service : Service Key) (layer : Layer) (exchange : Exchange PrivateKey Key) :
    Authed Layer := do
  let actor ← resolveActor exchange.env service.trust service.directory exchange.authorization
  let call ← routed service.config exchange.moment actor.toLayerActor exchange.request
  (step ledger layer call).mapError .gate

end Restating

end LedgerModel
