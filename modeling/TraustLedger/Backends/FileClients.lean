import TraustLedger.Library.SharedFiles
import TraustLedger.Verification
import TraustLedger.System

namespace LedgerModel

open Python Runs SharedFiles

inductive SignMethod where
  | keypair
  | identity

structure SignArgs where
  method : SignMethod
  key : Option String
  rekor : Bool

def buildCredentials (environ : Environ) (args : SignArgs) : SigningConfig :=
  match args.method with
  | .identity => ⟨"identity", none, signingEnv environ "OIDC_TOKEN" none⟩
  | .keypair => ⟨"keypair", if args.key.getD "" ≠ "" then args.key else signingEnv environ "KEY_PATH" none, none⟩

/-- What `cmd_sign` makes of the layer it read. The document goes to `Backend.store` as it is, with no schema
    check. -/
def cmdSign (env : Env) (moment : Moment) (environ : Environ) (args : SignArgs) (layer : Layer) : Outcome Layer := do
  let credentials := buildCredentials environ args
  require (credentials.keyPath.getD "" ≠ "" ∨ credentials.oidcToken.getD "" ≠ "")
    (.commandFailed "no signing credentials configured")
  let (signed, attempt) ← signLayer env moment (if args.rekor then env.publishing else env.signers)
    (some credentials) layer
  require (attempt.status = .signed) (.commandFailed "signing backend not available")
  return signed

inductive Client where
  | appendEvent (layerId : String) (event : Dict)
  | appendEvents (layerId : String) (events : List Dict)
  | door (tools : Tools) (call : Call)
  | cmdSign (tools : Tools) (moment : Moment) (environ : Environ) (args : SignArgs)

/-- Every door and every append goes through `FileBackend.mutate`; `cmd_sign` reads the file without the lock and
    takes it only to store. -/
def Client.program (env : Env) : Client → Program Layer Failure
  | .appendEvent layerId event =>
    ⟨true, fun layer => Prod.fst <$> fileMutate env layerId (fun layer => appendOne env.hash layer event) layer⟩
  | .appendEvents layerId events =>
    ⟨true, fun layer => Prod.fst <$> fileMutate env layerId (fun layer => appendMany env.hash layer events) layer⟩
  | .door tools call => ⟨true, fun layer => step { env.withTools tools with backend := .file } layer call⟩
  | .cmdSign tools moment environ args => ⟨false, LedgerModel.cmdSign (env.withTools tools) moment environ args⟩

def Client.appended : Client → List Dict
  | .appendEvent _ event => [event]
  | .appendEvents _ events => events
  | _ => []

variable {ι : Type} [DecidableEq ι]

def interleaved (env : Env) (clients : ι → Client) (file : Layer) (schedule : List ι) : World ι Layer :=
  run (advance fun client => (clients client).program env) (World.start file) schedule

end LedgerModel
