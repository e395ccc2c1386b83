import TraustLedger.Auth.Tokens
import TraustLedger.Library.GuardedCalls

namespace LedgerModel

open Python Runs GuardedCalls

/-- The files of the configuration directory. `config` and `credentials` are what their readers return: a file that
    is missing or no object reads as the empty one. `localKey` is what loading the key file gives. -/
structure Home (PrivateKey Key : Type) where
  config : Dict
  credentials : Dict
  localKey : Option (Authed PrivateKey)
  localJwks : Option (Authed (List (Jwk Key)))

def Home.empty {PrivateKey Key : Type} : Home PrivateKey Key := ⟨[], [], none, none⟩

abbrev Cli (PrivateKey Key α : Type) := Call AuthFailure (Home PrivateKey Key) α

structure ResolvedCredential (Key : Type) where
  token : Json
  verifier : TokenVerifier Key
  source : String

variable {PrivateKey Key : Type} (env : AuthEnv PrivateKey Key)

def ResolvedCredential.verify (credential : ResolvedCredential Key) : Authed TokenActor :=
  match credential.token with
  | .str token => credential.verifier.verify env token
  | _ => .error (.verification "invalid token: Invalid token type. Token must be a <class 'bytes'>")

section Store

def loadConfig : Cli PrivateKey Key Dict := Call.read Home.config

def saveConfig (data : Dict) : Cli PrivateKey Key Unit := Call.write fun home => { home with config := data }

def serverUrl (config : Dict) : Json := env.getOr "LEDGER_SERVER_URL" (config.get "server_url")

def activeHost : Cli PrivateKey Key Json := do
  let config ← loadConfig
  return env.getOr "LEDGER_SERVER_URL" (orElse (config.get "active_server") (config.get "server_url"))

def loadAllCredentials : Cli PrivateKey Key Dict := Call.read Home.credentials

def credentialsOf (credentials : Dict) : Json → Authed Json
  | .str host => return credentials.get host
  | .arr _ | .obj _ => .error .typeError
  | _ => return .null

def loadCredentials : Cli PrivateKey Key Json := do
  let host ← activeHost env
  if host.truthy = false then return .null
  let credentials ← loadAllCredentials
  Call.ofExcept (credentialsOf credentials host)

/-- Hosts are texts here, as every command that names one writes them. -/
def saveCredentials (data : Dict) (host : Json) : Cli PrivateKey Key Unit := do
  let active ← activeHost env
  match orElse host active with
  | .str name =>
    Call.ofExcept (require (name ≠ "") (.runtimeError "No active server configured"))
    Call.write fun home => { home with credentials := home.credentials.set name (.obj data) }
  | .arr _ | .obj _ => Call.ofExcept (.error .typeError)
  | _ => Call.ofExcept (.error (.runtimeError "No active server configured"))

def clearCredentials (host : String) : Cli PrivateKey Key Unit :=
  Call.write fun home => { home with credentials := home.credentials.remove host }

def clearAllCredentials : Cli PrivateKey Key Unit := Call.write fun home => { home with credentials := [] }

end Store

section Local

def tokenLifetimeSeconds : Int := 7 * 24 * 3600

def localJwk (key : PrivateKey) : Jwk Key := ⟨some "local-1", env.jwt.publicKey key⟩

def writeJwks (key : PrivateKey) : Cli PrivateKey Key Unit :=
  Call.write fun home => { home with localJwks := some (.ok [localJwk env key]) }

def ensureLocalKeypair : Cli PrivateKey Key PrivateKey := do
  let stored ← Call.read Home.localKey
  match stored with
  | some loaded =>
    let key ← Call.ofExcept loaded
    let jwks ← Call.read Home.localJwks
    if jwks.isNone = true then writeJwks env key
    return key
  | none =>
    Call.write fun home => { home with localKey := some (.ok env.freshKey) }
    writeJwks env env.freshKey
    return env.freshKey

def localPayload (seconds : Int) (identity : String) (machine : Bool) : Dict :=
  Dict.ofList [("sub", .str identity), ("iss", .str localIssuer), ("iat", .int seconds),
    ("exp", .int (seconds + tokenLifetimeSeconds)), (if machine then "azp" else "email", .str identity)]

def mintLocalToken (identity : String) (key : PrivateKey) (machine : Bool) : Authed String := do
  require (strip identity ≠ "") (.valueError "identity must not be empty")
  return env.jwt.encode (localPayload env.seconds identity machine) key

def rememberedIdentity (config : Dict) : String := pyStr (orElse (config.get "local_identity") (.str ""))

def forcesMachine : Bool := lowered (strip (env.get "LEDGER_LOCAL_MACHINE")) ∈ ["1", "true", "yes"]

def autoMintMachine (config : Dict) (identity : String) : Bool :=
  forcesMachine env || (config.get "local_identity_kind" == .str "machine" &&
    lowered (rememberedIdentity config) == lowered identity)

def autoMintLocalToken : Cli PrivateKey Key (Option String) := do
  let identity := strip (env.get "LEDGER_LOCAL_IDENTITY")
  if identity = "" then return none
  let config ← loadConfig
  let machine := autoMintMachine env config identity
  let key ← ensureLocalKeypair env
  let token ← Call.ofExcept (mintLocalToken env identity key machine)
  return some token

end Local

section Resolution

def buildLocalVerifier : Cli PrivateKey Key (TokenVerifier Key) := do
  let jwks ← Call.read Home.localJwks
  Call.ofExcept (require (jwks.isSome = true) (.resolution
    "local token resolved but no local JWKS found — run `ledger auth local` to generate a keypair"))
  Call.ofExcept (TokenVerifier.build { jwksFile := jwks, issuer := .str localIssuer })

def discoverConfigured : Json → Authed OidcMetadata
  | .str issuer => discoverOidc env issuer
  | _ => .error .attributeError

def oidcJwksUrl (oidcIssuer : Json) : Authed Json :=
  if env.get "LEDGER_OIDC_JWKS_URL" ≠ "" then return .str (env.get "LEDGER_OIDC_JWKS_URL")
  else if oidcIssuer.truthy then do
    let metadata ← discoverConfigured env oidcIssuer
    return metadata.jwksUri
  else .error (.resolution ("token is not a local-issuer JWT and no OIDC provider is configured — " ++
    "set LEDGER_OIDC_ISSUER or LEDGER_OIDC_JWKS_URL, or use local auth (`ledger auth local`)"))

def oidcIssuerOf (trustedIssuer : Json) : Json :=
  orElse trustedIssuer (env.getOr "LEDGER_OIDC_ISSUER" .null)

def buildOidcVerifier (trustedIssuer : Json) : Authed (TokenVerifier Key) := do
  let jwksUrl ← oidcJwksUrl env (oidcIssuerOf env trustedIssuer)
  TokenVerifier.build {
    jwksUrl := jwksUrl
    issuer := oidcIssuerOf env trustedIssuer
    audience := env.getOr "LEDGER_OIDC_AUDIENCE" .null
  }

/-- The unverified `iss` only chooses between the local keys and the configured provider. -/
def verifierForToken (token : String) : Cli PrivateKey Key (TokenVerifier Key) :=
  if ((env.jwt.peek token).getD []).get "iss" = .str localIssuer then buildLocalVerifier
  else Call.ofExcept (buildOidcVerifier env .null)

def verifierForIssuer (issuer : Json) : Cli PrivateKey Key (TokenVerifier Key) :=
  if issuer = .str localIssuer then buildLocalVerifier else Call.ofExcept (buildOidcVerifier env issuer)

def fromToken (token source : String) : Cli PrivateKey Key (ResolvedCredential Key) := do
  let verifier ← verifierForToken env token
  return ⟨.str token, verifier, source⟩

/-- An `AuthResolutionError` says that there is nothing here; every other failure passes through. -/
def unlessUnresolved {α : Type} : AuthFailure → Option (Authed (Option α))
  | .resolution _ => some (.ok none)
  | _ => none

def hasExpired (expiresAt : Json) : Authed Bool := if expiresAt = .null then return false else env.expired expiresAt

/-- A credential is skipped when it has no token, has expired, or no verifier can be built for its issuer. -/
def tryStoredCredential : Cli PrivateKey Key (Option (ResolvedCredential Key)) := do
  let stored ← loadCredentials env
  if stored.truthy = false then return none
  match stored with
  | .obj creds =>
    let token := Dict.get creds "access_token"
    if token.truthy = false then return none
    let expired ← Call.ofExcept (hasExpired env (Dict.get creds "expires_at"))
    if expired = true then return none
    Call.catching (do
      let verifier ← verifierForIssuer env (Dict.get creds "issuer")
      return some ⟨token, verifier, "stored"⟩) unlessUnresolved
  | _ => Call.ofExcept (.error .attributeError)

def unlessUnwritable {α : Type} : AuthFailure → Option (Authed (Option α))
  | .osError _ => some (.ok none)
  | _ => none

def tryAutoMint : Cli PrivateKey Key (Option (ResolvedCredential Key)) := do
  let minted ← Call.catching (autoMintLocalToken env) unlessUnwritable
  match minted with
  | none => return none
  | some token =>
    if token = "" then return none
    Call.catching (do
      let verifier ← buildLocalVerifier
      return some ⟨.str token, verifier, "auto-mint"⟩) unlessUnresolved

def readTokenPath (path : String) : Authed String := do
  let text ← (env.readText path).mapError fun
    | .osError detail => .resolution ("LEDGER_TOKEN_PATH=" ++ path ++ " is set but unreadable: " ++ detail)
    | failure => failure
  return strip text

def environmentToken : Authed (Option (String × String)) := do
  let laas := strip (env.get "LAAS_TOKEN")
  if laas ≠ "" then return some (laas, "env:LAAS_TOKEN")
  let path := env.get "LEDGER_TOKEN_PATH"
  let filed ← if path = "" then .ok "" else readTokenPath env path
  if filed ≠ "" then return some (filed, "env:LEDGER_TOKEN_PATH")
  let plain := strip (env.get "LEDGER_TOKEN")
  if plain ≠ "" then return some (plain, "env:LEDGER_TOKEN")
  return none

def authRequired : AuthFailure := .resolution ("authentication required — set LAAS_TOKEN, or run " ++
  "`ledger auth login` / `ledger auth local --identity <you>`")

def resolveAuth : Cli PrivateKey Key (ResolvedCredential Key) := do
  let named ← Call.ofExcept (environmentToken env)
  match named with
  | some (token, source) => fromToken env token source
  | none =>
    let stored ← tryStoredCredential env
    match stored with
    | some credential => return credential
    | none =>
      let minted ← tryAutoMint env
      match minted with
      | some credential => return credential
      | none => Call.ofExcept (.error authRequired)

def refused : AuthFailure → Option (Authed (Option TokenActor))
  | .resolution _ | .verification _ | .identityClaims _ => some (.ok none)
  | _ => none

def requireVerifiedActor : Cli PrivateKey Key (Option TokenActor) :=
  Call.catching (do
    let credential ← resolveAuth env
    let actor ← Call.ofExcept (credential.verify env)
    return some actor) refused

end Resolution

end LedgerModel
