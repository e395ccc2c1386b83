import TraustLedger.Identity

namespace LedgerModel

open Hashing Python Runs

/-- The request model's `list[dict]`, so that the handler's own check for objects always passes. -/
structure FingerprintRequest where
  findings : List Dict
  repository : Option String

structure FingerprintResponse where
  findings : List Dict
  stampedCount : Nat
  deriving DecidableEq

/-- What `raise ValidationError(*args, **kwargs)` raises. `ServiceError.__init__` takes keywords only, and fills them
    into the template of the class. -/
def raiseValidationError (args : List String) (detail : Option String) : Failure :=
  if args ≠ [] then .typeError else .validation (detail.getD "\x7bdetail\x7d")

/-- `except DegenerateIdentity`: the one value error that opens with these words. -/
def isDegenerateIdentity : Failure → Bool
  | .valueError detail => (chars "refusing to fingerprint a finding").isPrefixOf (chars detail)
  | _ => false

def isEligible (finding : Dict) : Bool := (finding.get "locations").truthy && (finding.get "cwes").truthy

def degenerateDetail (finding : Dict) : String :=
  (if (finding.get "id").truthy then pyStr (finding.get "id") else "<no id>") ++
    ": every location canonicalises to empty, so this finding cannot be told apart from another in the " ++
    "same repo with the same CWE. Give it the artifact it is about, or a `repo:<subject>` marker for a " ++
    "genuinely repo-scoped finding."

variable (H : HashFunction)

def strictFingerprint (finding : Dict) (repository : Option String) : Outcome String :=
  match fingerprint H finding repository true with
  | .ok value => .ok value
  | .error failure =>
    .error (if isDegenerateIdentity failure then raiseValidationError [degenerateDetail finding] none else failure)

def stampFindings (repository : Option String) : List Dict → Outcome (List Dict × Nat)
  | [] => return ([], 0)
  | finding :: findings => do
    if isEligible finding = false then
      let (stamped, count) ← stampFindings repository findings
      return (finding :: stamped, count)
    else
      let value ← strictFingerprint H finding repository
      let (stamped, count) ← stampFindings repository findings
      return (finding.set "fingerprint" (.str value) :: stamped, count + 1)

def computeFingerprints (body : FingerprintRequest) : Outcome FingerprintResponse := do
  let (findings, stamped) ← stampFindings H body.repository body.findings
  return ⟨findings, stamped⟩

end LedgerModel
