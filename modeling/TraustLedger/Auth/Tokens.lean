import TraustLedger.Identity
import TraustLedger.Gates

namespace LedgerModel

open Python Runs

inductive AuthFailure where
  | expiredSignature
  | invalidIssuer
  | invalidToken (detail : String)
  | jwkClient (detail : String)
  | jwkSet (detail : String)
  | verification (detail : String)
  | identityClaims (detail : String)
  | resolution (detail : String)
  | directoryRefused (identity status : String)
  | directoryUnavailable (detail : String)
  | missingAuth
  | invalidAuth
  | notAnAdmin (identity : Option String)
  | insufficientApprovers (required : Int) (found : Nat)
  | gate (failure : Failure)
  | ledger (detail : String)
  | osError (detail : String)
  | runtimeError (detail : String)
  | valueError (detail : String)
  | keyError (key : String)
  | attributeError
  | typeError
  deriving DecidableEq

abbrev Authed := Except AuthFailure

structure Jwk (Key : Type) where
  keyId : Option String
  key : Key

/-- PyJWT as one process sees it, its clock included. `peek` decodes without a signature check and `keyId` reads the
    `kid` of the header; an absent issuer or audience is `null`. -/
structure Jwt (PrivateKey Key : Type) where
  peek : String → Option Dict
  keyId : String → Authed (Option String)
  decode : Key → Json → Json → String → Authed Dict
  encode : Dict → PrivateKey → String
  publicKey : PrivateKey → Key

/-- The outside of one process: its environment, the files and pages it reads, its clock and the key it would generate.
    `expired` and `later` are `time.time() >= t` and `time.time() + t`. -/
structure AuthEnv (PrivateKey Key : Type) where
  environ : String → Option String
  jwt : Jwt PrivateKey Key
  signingKey : Json → String → Authed Key
  discovery : String → Authed Dict
  readText : String → Authed String
  seconds : Int
  expired : Json → Authed Bool
  later : Json → Authed Json
  freshKey : PrivateKey

namespace AuthEnv

variable {PrivateKey Key : Type} (env : AuthEnv PrivateKey Key)

def get (name : String) : String := (env.environ name).getD ""

def getOr (name : String) (other : Json) : Json := if env.get name ≠ "" then .str (env.get name) else other

end AuthEnv

def localIssuer : String := "local"

/-- `text.lower()`, of A to Z. -/
def lowered (text : String) : String := String.ofList (asciiLower (chars text))

def orElse (left right : Json) : Json := if left.truthy then left else right

section Claims

variable {PrivateKey Key : Type} (env : AuthEnv PrivateKey Key)

def localIdentityTrusted : Bool := strip (env.get "LEDGER_TRUST_LOCAL_IDENTITY") == "1"

structure TokenActor extends LayerActor where
  identityIssuer : Option String
  identitySubject : Option String
  deriving DecidableEq

def claimedIdentity (claims : Dict) (machineClaim identityClaim : String) : Authed (String × String) := do
  let machineValue := claims.get machineClaim
  let identityValue := claims.get identityClaim
  if machineValue.truthy = true ∧ identityValue.truthy = false then return ("machine", pyStr machineValue)
  if identityValue.truthy = true then
    let stripped := strip (lowered (pyStr identityValue))
    require (stripped ≠ "") (.identityClaims ("empty identity claim: " ++ identityClaim))
    return ("human", stripped)
  require ((claims.get "sub").truthy = true) (.identityClaims "no identity claims in token")
  return ("machine", pyStr (claims.get "sub"))

def claimsToActor (claims : Dict) (machineClaim identityClaim : String) (issuerFallback : Json) :
    Authed TokenActor := do
  let (kind, identity) ← claimedIdentity claims machineClaim identityClaim
  let issuer := pyStr (orElse (claims.get "iss") issuerFallback)
  let isLocal := issuer == localIssuer
  return {
    kind := kind
    identity := some identity
    identityVerified := some (if isLocal then localIdentityTrusted env else true)
    identityProvider := some (if isLocal then "local" else "oidc")
    employeeStatus := none
    ldapVerified := none
    identityIssuer := some issuer
    identitySubject := some (pyStr (orElse (claims.get "sub") (.str "")))
  }

end Claims

/-- `jwksFile` is the file of `jwks_path` when there is one: the keys it holds, or what reading them raises. -/
structure VerifierConfig (Key : Type) where
  jwksUrl : Json := .null
  jwksFile : Option (Authed (List (Jwk Key))) := none
  issuer : Json := .null
  audience : Json := .null
  machineClaim : String := "azp"
  identityClaim : String := "email"

structure TokenVerifier (Key : Type) where
  config : VerifierConfig Key
  localKeys : List (Jwk Key)

namespace TokenVerifier

variable {PrivateKey Key : Type} (env : AuthEnv PrivateKey Key)

/-- A file that is no JSON, or holds no keys, is logged and leaves the verifier without local keys. -/
def readLocalKeys : Option (Authed (List (Jwk Key))) → Authed (List (Jwk Key))
  | none => return []
  | some (.ok keys) => return keys
  | some (.error (.valueError _)) | some (.error (.keyError _)) => return []
  | some (.error failure) => .error failure

def build (config : VerifierConfig Key) : Authed (TokenVerifier Key) := do
  let localKeys ← readLocalKeys config.jwksFile
  require (localKeys.isEmpty = true ∨ config.jwksUrl.truthy = false) (.valueError
    ("VerifierConfig has both jwks_url and jwks_path — use resolve_auth() which builds single-source verifiers"))
  return ⟨config, localKeys⟩

def localKeyFor (first : Jwk Key) (rest : List (Jwk Key)) (token : String) : Authed Key := do
  let kid ← env.jwt.keyId token
  let named := (first :: rest).find? fun jwk => kid.getD "" != "" && jwk.keyId == kid
  return (named.getD first).key

def resolveSigningKey (verifier : TokenVerifier Key) (token : String) : Authed Key :=
  match verifier.localKeys with
  | first :: rest => localKeyFor env first rest token
  | [] =>
    if verifier.config.jwksUrl.truthy then env.signingKey verifier.config.jwksUrl token
    else .error (.verification "no JWKS source configured")

def caught : AuthFailure → AuthFailure
  | .expiredSignature => .verification "token expired"
  | .invalidIssuer => .verification "wrong issuer"
  | .invalidToken detail | .jwkClient detail => .verification ("invalid token: " ++ detail)
  | failure => failure

def decoded (verifier : TokenVerifier Key) (token : String) : Authed Dict := do
  let key ← verifier.resolveSigningKey env token
  env.jwt.decode key (orElse verifier.config.issuer .null) (orElse verifier.config.audience .null) token

def verify (verifier : TokenVerifier Key) (token : String) : Authed TokenActor := do
  let claims ← (verifier.decoded env token).mapError caught
  claimsToActor env claims verifier.config.machineClaim verifier.config.identityClaim
    (orElse verifier.config.issuer (.str ""))

end TokenVerifier

structure OidcMetadata where
  issuer : Json
  jwksUri : Json
  tokenEndpoint : Json
  deviceAuthorizationEndpoint : Json

def discoverOidc {PrivateKey Key : Type} (env : AuthEnv PrivateKey Key) (issuer : String) : Authed OidcMetadata := do
  let root := String.ofList ((chars issuer).rdropWhile (· == '/'))
  let metadata ← env.discovery (root ++ "/.well-known/openid-configuration")
  require ((metadata.get "jwks_uri").truthy = true) (.runtimeError "OIDC provider does not publish jwks_uri")
  require ((metadata.get "token_endpoint").truthy = true)
    (.runtimeError "OIDC provider does not publish token_endpoint")
  return ⟨metadata.getD "issuer" (.str issuer), metadata.get "jwks_uri", metadata.get "token_endpoint",
    metadata.get "device_authorization_endpoint"⟩

end LedgerModel
