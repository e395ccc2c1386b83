import TraustLedger.Auth.Credentials

namespace LedgerModel

open Python Runs GuardedCalls

/-- What an OIDC provider answers in one process: `deviceCode` is the flow of a person who visits the page,
    `clientCredentials` and `refreshGrant` the exchanges of a secret and of a refresh token. -/
structure Provider where
  deviceCode : String → String → Authed Dict
  clientCredentials : Json → String → String → Authed Dict
  refreshGrant : Json → Json → Json → Authed Dict

inductive AuthCommand where
  | login (tokenFile : Option String)
  | serviceAccount (clientId clientSecretFile : Option String)
  | logout (all : Bool)
  | switch (host : Option String)
  | refresh
  | token
  | localToken (identity : Option String) (machine human : Bool)
  | configSet (server issuer clientId : Option String)
  | other

structure Process (PrivateKey Key : Type) where
  env : AuthEnv PrivateKey Key
  provider : Provider
  command : AuthCommand

variable {PrivateKey Key : Type} (env : AuthEnv PrivateKey Key) (provider : Provider)

def textOr (text : Option String) (other : Json) : Json := if text.getD "" ≠ "" then .str (text.getD "") else other

def field (data : Dict) (key : String) : Authed Json := do
  require (data.has key = true) (.keyError key)
  return data.get key

def refusedByProvider : AuthFailure → Option (Authed (Option Dict))
  | .runtimeError _ => some (.ok none)
  | _ => none

def asked (response : Authed Dict) : Cli PrivateKey Key (Option Dict) :=
  Call.catching (Call.ofExcept (response.map some)) refusedByProvider

def activate (config : Dict) (host : Json) (credential : Authed Dict) : Cli PrivateKey Key Nat := do
  saveConfig (config.set "active_server" host)
  let data ← Call.ofExcept credential
  saveCredentials env data host
  return 0

def cmdAuthLoginFile (path : String) : Cli PrivateKey Key Nat := do
  let config ← loadConfig
  let server := serverUrl env config
  let text ← Call.ofExcept (env.readText path)
  if server.truthy = true then saveConfig (config.set "active_server" server)
  saveCredentials env (Dict.ofList [("access_token", .str (strip text))]) (orElse server (.str "local"))
  return 0

def deviceCredential (response : Dict) (expiresAt : Json) (issuer clientId : String) : Authed Dict := do
  let token ← field response "access_token"
  return Dict.ofList [("access_token", token), ("refresh_token", response.get "refresh_token"),
    ("expires_at", expiresAt), ("issuer", .str issuer), ("client_id", .str clientId)]

def cmdAuthLoginDevice : Cli PrivateKey Key Nat := do
  let config ← loadConfig
  match env.getOr "LEDGER_OIDC_ISSUER" (config.get "issuer"),
      env.getOr "LEDGER_OIDC_CLIENT_ID" (config.get "client_id") with
  | .str issuer, .str clientId =>
    if issuer = "" ∨ clientId = "" then return 1
    let response ← Call.ofExcept (provider.deviceCode issuer clientId)
    let expiresIn ← Call.ofExcept (field response "expires_in")
    let expiresAt ← Call.ofExcept (env.later expiresIn)
    activate env config (orElse (serverUrl env config) (.str issuer))
      (deviceCredential response expiresAt issuer clientId)
  | _, _ => return 1

def clientSecret (clientSecretFile : Option String) : Authed String :=
  match clientSecretFile with
  | some path => if path ≠ "" then (env.readText path).map strip else return env.get "LEDGER_OIDC_CLIENT_SECRET"
  | none => return env.get "LEDGER_OIDC_CLIENT_SECRET"

def serviceCredential (response : Dict) (expiresAt : Json) (issuer clientId : String) : Dict :=
  Dict.ofList [("access_token", response.get "access_token"), ("expires_at", expiresAt), ("issuer", .str issuer),
    ("client_id", .str clientId)]

def unreadableSecret : AuthFailure → Option (Authed (Option String))
  | .osError _ => some (.ok none)
  | _ => none

def cmdAuthServiceAccount (clientId clientSecretFile : Option String) : Cli PrivateKey Key Nat := do
  let config ← loadConfig
  match env.getOr "LEDGER_OIDC_ISSUER" (config.get "issuer"),
      textOr clientId (env.getOr "LEDGER_OIDC_CLIENT_ID" (config.get "client_id")) with
  | .str issuer, .str clientId =>
    if issuer = "" ∨ clientId = "" then return 1
    let secret ← Call.catching (Call.ofExcept ((clientSecret env clientSecretFile).map some)) unreadableSecret
    match secret with
    | none => return 2
    | some secret =>
      if secret = "" then return 1
      let metadata ← Call.ofExcept (discoverOidc env issuer)
      let answer ← asked (provider.clientCredentials metadata.tokenEndpoint clientId secret)
      match answer with
      | none => return 1
      | some response =>
        if (response.get "access_token").truthy = false then return 1
        let expiresAt ← Call.ofExcept (env.later (response.getD "expires_in" (.int 3600)))
        activate env config (orElse (serverUrl env config) (.str issuer))
          (.ok (serviceCredential response expiresAt issuer clientId))
  | _, _ => return 1

def cmdAuthLogout (all : Bool) : Cli PrivateKey Key Nat := do
  if all = true then
    clearAllCredentials
    return 0
  let host ← activeHost env
  match host with
  | .str name =>
    if name = "" then return 1
    clearCredentials name
    return 0
  | _ => return 1

def cmdAuthSwitch (host : Option String) : Cli PrivateKey Key Nat := do
  let credentials ← loadAllCredentials
  if credentials.isEmpty = true then return 1
  let target := host.getD ""
  if target ≠ "" ∧ credentials.has target = false then return 1
  if target = "" then return 0
  let config ← loadConfig
  saveConfig (config.set "active_server" (.str target))
  return 0

def refreshedCredential (creds response : Dict) (expiresAt : Json) : Authed Dict := do
  let token ← field response "access_token"
  let renewed := creds.set "access_token" token
  let kept := if (response.get "refresh_token").truthy then renewed.set "refresh_token" (response.get "refresh_token")
    else renewed
  return kept.set "expires_at" expiresAt

def cmdAuthRefresh : Cli PrivateKey Key Nat := do
  let stored ← loadCredentials env
  match stored with
  | .null => return 1
  | .obj creds =>
    let renewal := Dict.get creds "refresh_token"
    let issuer := Dict.get creds "issuer"
    let clientId := Dict.get creds "client_id"
    if renewal.truthy = false ∨ issuer.truthy = false ∨ clientId.truthy = false then return 1
    let metadata ← Call.ofExcept (discoverConfigured env issuer)
    let answer ← asked (provider.refreshGrant metadata.tokenEndpoint clientId renewal)
    match answer with
    | none => return 1
    | some response =>
      let expiresAt ← Call.ofExcept (env.later (response.getD "expires_in" (.int 3600)))
      let data ← Call.ofExcept (refreshedCredential creds response expiresAt)
      saveCredentials env data .null
      return 0
  | _ => Call.ofExcept (.error .attributeError)

/-- `resolve_token`, the chain of `ledger auth token`: it stops at the first source that is set. -/
def resolveToken : Cli PrivateKey Key (Option Json) := do
  let path := env.get "LEDGER_TOKEN_PATH"
  if path ≠ "" then
    let text ← Call.ofExcept ((env.readText path).mapError fun
      | .osError detail => .runtimeError ("LEDGER_TOKEN_PATH=" ++ path ++ " is set but unreadable: " ++ detail)
      | failure => failure)
    return some (.str (strip text))
  if env.get "LEDGER_TOKEN" ≠ "" then return some (.str (env.get "LEDGER_TOKEN"))
  let stored ← loadCredentials env
  match stored with
  | .null =>
    let minted ← autoMintLocalToken env
    return minted.map .str
  | .obj creds =>
    let token := Dict.get creds "access_token"
    let expired ← Call.ofExcept (if token.truthy then hasExpired env (Dict.get creds "expires_at") else return true)
    if expired = false then return some token
    let minted ← autoMintLocalToken env
    return minted.map .str
  | _ => Call.ofExcept (.error .attributeError)

def cmdAuthToken : Cli PrivateKey Key Nat := do
  let token ← resolveToken env
  return if (token.getD .null).truthy then 0 else 1

def asText : Json → Authed String
  | .str text => return text
  | _ => .error .attributeError

/-- The kind is inherited when the remembered identity is used again; only `--human` takes it back. -/
def localMachine (config : Dict) (asked : Option String) (identity : String) (machine human : Bool) : Bool :=
  machine || (!human && (asked.isNone || lowered (strip identity) == lowered (rememberedIdentity config)) &&
    config.get "local_identity_kind" == .str "machine")

def localName (identity : String) (machine : Bool) : String :=
  if machine then strip identity else lowered (strip identity)

def rememberedConfig (config : Dict) (name : String) (machine : Bool) : Dict :=
  ((config.set "local_identity" (.str name)).set "local_identity_kind"
    (.str (if machine then "machine" else "human"))).set "active_server" (.str "local")

def localCredential (token : String) (expiresAt : Json) : Dict :=
  Dict.ofList [("access_token", .str token), ("expires_at", expiresAt), ("issuer", .str "local")]

def cmdAuthLocal (asked : Option String) (machine human : Bool) : Cli PrivateKey Key Nat := do
  let config ← loadConfig
  let chosen := textOr asked (config.get "local_identity")
  if chosen.truthy = false then return 1
  if machine = true ∧ human = true then return 2
  let identity ← Call.ofExcept (asText chosen)
  let kind := localMachine config asked identity machine human
  let name := localName identity kind
  let key ← ensureLocalKeypair env
  let token ← Call.ofExcept (mintLocalToken env name key kind)
  saveConfig (rememberedConfig config name kind)
  let expiresAt ← Call.ofExcept (env.later (.int tokenLifetimeSeconds))
  saveCredentials env (localCredential token expiresAt) (.str "local")
  return 0

def setWhenNamed (config : Dict) (key : String) : Option String → Dict
  | some value => config.set key (.str value)
  | none => config

def cmdConfigSet (server issuer clientId : Option String) : Cli PrivateKey Key Nat := do
  let config ← loadConfig
  saveConfig (setWhenNamed (setWhenNamed (setWhenNamed config "server_url" server) "issuer" issuer)
    "client_id" clientId)
  return 0

def Process.run (process : Process PrivateKey Key) : Cli PrivateKey Key Nat :=
  match process.command with
  | .login (some path) => if path ≠ "" then cmdAuthLoginFile process.env path
    else cmdAuthLoginDevice process.env process.provider
  | .login none => cmdAuthLoginDevice process.env process.provider
  | .serviceAccount clientId secretFile => cmdAuthServiceAccount process.env process.provider clientId secretFile
  | .logout all => cmdAuthLogout process.env all
  | .switch host => cmdAuthSwitch host
  | .refresh => cmdAuthRefresh process.env process.provider
  | .token => cmdAuthToken process.env
  | .localToken identity machine human => cmdAuthLocal process.env identity machine human
  | .configSet server issuer clientId => cmdConfigSet server issuer clientId
  | .other => do
    let actor ← requireVerifiedActor process.env
    return if actor.isSome then 0 else 1

def runProcesses (home : Home PrivateKey Key) (processes : List (Process PrivateKey Key)) : Home PrivateKey Key :=
  processes.foldl (fun files process => process.run.after files) home

end LedgerModel
