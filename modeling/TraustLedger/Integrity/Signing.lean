import TraustLedger.Errors

namespace LedgerModel

open Hashing Python

structure SignResult where
  signature : String
  success : Bool
  error : Option String

structure VerifyResult where
  valid : Bool
  error : Option String

structure SigningConfig where
  method : String
  keyPath : Option String
  oidcToken : Option String

/-- A signing tool. An error of `sign` or `verify` is an exception of the tool itself. -/
structure SigningBackend where
  methodName : String
  available : Bool
  sign : Bytes → String → Except String SignResult
  verify : Bytes → Json → String → Outcome VerifyResult

structure Signers where
  cosign : SigningBackend
  sigstore : SigningConfig → SigningBackend

def unknownMethod (method : String) : String :=
  "Unknown signing method: " ++ pyRepr (.str method) ++ ". Available methods: ['keypair', 'identity']"

def getBackendFromConfig (signers : Signers) (config : SigningConfig) : Except String SigningBackend :=
  if config.method = "keypair" then .ok signers.cosign
  else if config.method = "identity" then .ok (signers.sigstore config)
  else .error (unknownMethod config.method)

/-- `get_backend_for_method`: the identity tool is built without its settings here. -/
def getBackendForMethod (signers : Signers) (method : Json) : Option SigningBackend :=
  if method = .str "keypair" then some signers.cosign
  else if method = .str "identity" then
    some (signers.sigstore ⟨"identity", none, none⟩)
  else none

end LedgerModel
