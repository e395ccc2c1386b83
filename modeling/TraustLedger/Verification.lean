import TraustLedger.Storage

namespace LedgerModel

open Hashing Python Runs

abbrev Environ := String → Option String

def envPrefixes : List String := ["LAAS_SIGNING_", "HARNESS_SIGNING_"]

/-- The first prefix that is set decides, whatever it is set to. -/
def signingEnv (environ : Environ) (suffix : String) (default : Option String) : Option String :=
  (envPrefixes.findSome? fun family => environ (family ++ suffix)).or default

/-- `text.lower()`: no letter outside ASCII has its lower case among the letters compared here. -/
def lower (text : String) : List Char := (chars text).map Char.toLower

def configFromEnv (environ : Environ) : ServiceConfig where
  signingRequired := lower ((environ "LAAS_SIGNING_REQUIRED").getD "") ∈ [chars "true", chars "1", chars "yes"]
  signingKeyPath := environ "LAAS_SIGNING_KEY_PATH"
  signingMethod := (environ "LAAS_SIGNING_METHOD").getD "cosign"

structure VerifyReport where
  passed : Bool
  findings : List IntegrityFinding

variable (H : HashFunction) (signers : Signers)

def verifyLayer (environ : Environ) (checkSignatures : Bool) (layer : Layer) : Outcome VerifyReport := do
  let integrity ← verifyMerkleIntegrity H layer
  let signature ← if checkSignatures then
      verifyMerkleSignature H signers (signingEnv environ "REQUIRED" (some "0") = some "1") layer none none
    else pure []
  return ⟨(integrity ++ signature).isEmpty, integrity ++ signature⟩

end LedgerModel
