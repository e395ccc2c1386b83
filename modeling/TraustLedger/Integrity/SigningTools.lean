import TraustLedger.Integrity.Signing

namespace LedgerModel

open Hashing Python

inductive BundleFile where
  | missing (error : String)
  | undecodable (error : String)
  | text (content : String)

inductive CosignRun where
  | failed (error : String)
  | ended (returncode : Int) (stderr : String) (written : BundleFile)

/-- `execute` is given the arguments, the payload in `payload.bin` and the text put into `in.bundle`, if any. -/
structure Cosign where
  installed : Bool
  execute : List String → Bytes → Option String → CosignRun

/-- Python's `json`: `loads` finds nothing where it raises `ValueError`, and `compacted` is the text
    `json.dumps(json.loads(raw), separators=(",", ":"))`. -/
structure JsonModule where
  loads : String → Option Json
  compacted : String → String

def typeName : Json → String
  | .null => "NoneType"
  | .bool _ => "bool"
  | .int _ => "int"
  | .float _ => "float"
  | .str _ => "str"
  | .arr _ => "list"
  | .obj _ => "dict"

def noGet (value : Json) : String := "'" ++ typeName value ++ "' object has no attribute 'get'"

def orDict : Json → Except String Dict
  | .obj fields => .ok fields
  | value => if value.truthy then .error (noGet value) else .ok []

def pyLen : Json → Except String Nat
  | .str text => .ok (chars text).length
  | .arr items => .ok items.length
  | .obj fields => .ok fields.length
  | value => .error ("object of type '" ++ typeName value ++ "' has no len()")

def namedCount (name : String) (found : Json) : Except String (List String) := do
  if found.truthy = false then return []
  let count ← pyLen found
  return [toString count ++ " " ++ name]

def transparencyEvidence : Json → Except String (List String)
  | .obj bundle => do
    let material ← orDict (Dict.get bundle "verificationMaterial")
    let entries ← namedCount "tlogEntries" (material.get "tlogEntries")
    let timestamps ← orDict (material.get "timestampVerificationData")
    let stamps ← namedCount "rfc3161Timestamps" (timestamps.get "rfc3161Timestamps")
    return entries ++ stamps
  | bundle => .error (noGet bundle)

def notSigned (error : String) : SignResult := ⟨"", false, some error⟩

def publishedError (published : List String) : String :=
  "REFUSING the signature: cosign published it to a transparency log (" ++ String.intercalate ", " published ++
    ") despite being asked not to. The signature has been discarded, but the upload is already public and " ++
    "irreversible. cosign has almost certainly changed its flag contract again — see the transparency-log hazard " ++
    "note on the cosign entry in config/external-tools.yaml."

namespace Cosign

variable (cosign : Cosign)

def signArguments (keyPath : String) (rekor : Bool) : List String :=
  ["cosign", "sign-blob", "--key", keyPath, "--yes"] ++
    (if rekor then [] else ["--use-signing-config=false", "--tlog-upload=false"]) ++
    ["--bundle", "out.bundle", "payload.bin"]

/-- A bundle that is no JSON, or is `null`, is returned as it was written. -/
def checkedBundle (json : JsonModule) (rekor : Bool) (raw : String) : Except String SignResult :=
  match json.loads raw with
  | none | some .null => return ⟨raw, true, none⟩
  | some bundle => do
    let published ← if rekor then pure [] else transparencyEvidence bundle
    if published ≠ [] then return notSigned (publishedError published)
    return ⟨json.compacted raw, true, none⟩

def sign (json : JsonModule) (rekor : Bool) (payload : Bytes) (keyPath : String) : Except String SignResult :=
  match cosign.execute (signArguments keyPath rekor) payload none with
  | .failed error => return notSigned error
  | .ended returncode stderr written =>
    if returncode ≠ 0 then return notSigned (strip stderr)
    else match written with
      | .missing error => return notSigned ("cosign reported success but wrote no bundle: " ++ error)
      | .undecodable error => .error error
      | .text content =>
        if strip content = "" then return notSigned "cosign wrote an empty bundle"
        else checkedBundle json rekor (strip content)

def isBundle (signature : String) : Bool := ((chars signature).dropWhile isSpace).head? == some '{'

/-- A text that opens an object is a bundle, any other a bare signature of the older contract. -/
def verify (payload : Bytes) (signature : Json) (keyPath : String) : Outcome VerifyResult :=
  match signature with
  | .str text =>
    let ran := if isBundle text then
        cosign.execute ["cosign", "verify-blob", "--key", keyPath, "--bundle", "in.bundle", "--insecure-ignore-tlog",
          "payload.bin"] payload (some text)
      else cosign.execute ["cosign", "verify-blob", "--key", keyPath, "--signature", text, "payload.bin"] payload none
    match ran with
    | .failed error => return ⟨false, some error⟩
    | .ended returncode stderr _ => return if returncode ≠ 0 then ⟨false, some (strip stderr)⟩ else ⟨true, none⟩
  | _ => .error .attributeError

def backend (json : JsonModule) (rekor : Bool) : SigningBackend where
  methodName := "keypair"
  available := cosign.installed
  sign := cosign.sign json rekor
  verify := cosign.verify

end Cosign

structure Raised where
  name : String
  message : String

structure OidcSettings where
  oidcIssuer : Option String
  oidcClientId : Option String
  expectedIdentity : Option String
  oidcToken : Option String
  allowInteractive : Bool
  caUrl : Option String
  tlogUrl : Option String

structure Sigstore (Token Bundle : Type) where
  importable : Bool
  identityToken : String → String → Except Raised Token
  detectCredential : Except Raised (Option String)
  interactiveToken : Option String → Option String → Except Raised Token
  signArtifact : Option (String × String) → Token → Bytes → Except Raised String
  fromJson : Json → Except String Bundle
  verifyArtifact : Option (String × String) → String → String → Bytes → Bundle → Except String Unit

def given (setting : Option String) : Option String := setting.filter (· ≠ "")

def notInstalled : String := "sigstore package not installed — install with: pip install sigstore"

namespace OidcSettings

variable (settings : OidcSettings)

def unset : OidcSettings := ⟨none, none, none, none, false, none, none⟩

def validateCustomUrls : Option String :=
  if (given settings.caUrl).isSome = (given settings.tlogUrl).isSome then none
  else some ("both ca_url and tlog_url must be configured for custom infrastructure (got ca_url=" ++
    (given settings.caUrl).getD "<unset>" ++ ", tlog_url=" ++ (given settings.tlogUrl).getD "<unset>" ++ ")")

def infrastructure : Option (String × String) := do
  let caUrl ← given settings.caUrl
  let tlogUrl ← given settings.tlogUrl
  return (caUrl, tlogUrl)

end OidcSettings

namespace Sigstore

variable {Token Bundle : Type} (sigstore : Sigstore Token Bundle) (settings : OidcSettings)

def ambientToken (clientId : String) : Option Token :=
  match sigstore.detectCredential with
  | .ok (some raw) => if raw = "" then none else (sigstore.identityToken raw clientId).toOption
  | _ => none

def resolveIdentityToken : Except Raised (Option Token) :=
  let clientId := (given settings.oidcClientId).getD "sigstore"
  match given settings.oidcToken with
  | some token => some <$> sigstore.identityToken token clientId
  | none =>
    match sigstore.ambientToken clientId with
    | some token => return some token
    | none =>
      if settings.allowInteractive then
        some <$> sigstore.interactiveToken (given settings.oidcIssuer) (given settings.oidcClientId)
      else return none

def signAs (payload : Bytes) : Except Raised SignResult := do
  match ← sigstore.resolveIdentityToken settings with
  | none => return notSigned ("No OIDC token available — set LAAS_SIGNING_OIDC_TOKEN, run in a CI environment with " ++
      "ambient credentials, or enable interactive mode (LAAS_SIGNING_OIDC_INTERACTIVE=1)")
  | some token => return ⟨← sigstore.signArtifact settings.infrastructure token payload, true, none⟩

def sign (payload : Bytes) : SignResult :=
  if sigstore.importable = false then notSigned notInstalled
  else match settings.validateCustomUrls with
    | some error => notSigned error
    | none =>
      match sigstore.signAs settings payload with
      | .ok result => result
      | .error raised => notSigned ("Signing failed (" ++ raised.name ++ "): " ++
          (if raised.message = "" then raised.name else raised.message))

def verify (payload : Bytes) (signature : Json) : VerifyResult :=
  if sigstore.importable = false then ⟨false, some notInstalled⟩
  else match settings.validateCustomUrls with
    | some error => ⟨false, some error⟩
    | none =>
      match sigstore.fromJson signature with
      | .error error => ⟨false, some ("Failed to deserialize signing bundle: " ++ error)⟩
      | .ok bundle =>
        match given settings.expectedIdentity, given settings.oidcIssuer with
        | some identity, some issuer =>
          match sigstore.verifyArtifact settings.infrastructure identity issuer payload bundle with
          | .ok () => ⟨true, none⟩
          | .error error => ⟨false, some error⟩
        | _, _ => ⟨false, some "OIDC verification requires expected_identity and oidc_issuer to be configured"⟩

def backend : SigningBackend where
  methodName := "identity"
  available := sigstore.importable
  sign := fun payload _ => .ok (sigstore.sign settings payload)
  verify := fun payload signature _ => .ok (sigstore.verify settings payload signature)

end Sigstore

end LedgerModel
