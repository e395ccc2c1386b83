import TraustLedger.Errors
import TraustLedger.Integrity.Merkle
import Mathlib.Data.List.DropRight
import Mathlib.Data.List.Dedup
import Mathlib.Data.List.Sort

namespace LedgerModel

open Hashing Python Runs

/-- Case folding is of A to Z only; every other character stays as it is. -/
def lowerChar (c : Char) : Char := if 65 ≤ c.toNat ∧ c.toNat ≤ 90 then Char.ofNat (c.toNat + 32) else c

def upperChar (c : Char) : Char := if 97 ≤ c.toNat ∧ c.toNat ≤ 122 then Char.ofNat (c.toNat - 32) else c

def asciiLower (text : List Char) : List Char := text.map lowerChar

def asciiUpper (text : List Char) : List Char := text.map upperChar

def https : List Char := ['h', 't', 't', 'p', 's', ':', '/', '/']

/-- `re.sub(r"^git@([^:]+):", r"https://\1/", s)`. -/
def scpForm (s : List Char) : List Char :=
  match List.isPrefixOf? ['g', 'i', 't', '@'] s with
  | none => s
  | some rest =>
    match rest.takeWhile (· != ':'), rest.dropWhile (· != ':') with
    | first :: host, _ :: path => https ++ first :: host ++ '/' :: path
    | _, _ => s

def schemes : List (List Char) :=
  [['h', 't', 't', 'p', ':', '/', '/'], https, ['s', 's', 'h', ':', '/', '/'], ['g', 'i', 't', ':', '/', '/']]

/-- `re.sub(r"^(https?|ssh|git)://", "https://", s)`. -/
def schemeForm (s : List Char) : List Char :=
  match schemes.findSome? fun scheme => List.isPrefixOf? scheme s with
  | none => s
  | some rest => https ++ rest

def gitSuffix : List Char := ['.', 'g', 'i', 't']

/-- `re.sub(r"\.git$", "", s)`; the text was stripped, so no newline ends it. -/
def dropGit (s : List Char) : List Char :=
  if gitSuffix.isSuffixOf s then s.take (s.length - gitSuffix.length) else s

def canonRepoText (url : List Char) : List Char :=
  (dropGit (schemeForm (scpForm (asciiLower (stripChars url))))).rdropWhile (· == '/')

def canonRepo (url : Option String) : String := String.ofList (canonRepoText (chars (url.getD "")))

/-- `re.sub(r"/{2,}", "/", s)`. -/
def collapseSlashes : List Char → List Char
  | [] => []
  | c :: rest => if c = '/' ∧ rest.head? = some '/' then collapseSlashes rest else c :: collapseSlashes rest

def forwardSlash (c : Char) : Char := if c = '\\' then '/' else c

def canonPathText (p : List Char) : List Char :=
  let s := collapseSlashes ((stripChars p).map forwardSlash)
  (s.dropWhile fun c => c == '.' || c == '/').rdropWhile (· == '/')

def canonPath : Json → Outcome String
  | .str p => return String.ofList (canonPathText (chars p))
  | value => do
    require (value.truthy = false) .attributeError
    return ""

def iterated : Json → Outcome (List Json)
  | .arr items => return items
  | .str text => return (chars text).map fun c => .str (String.ofList [c])
  | .obj fields => return fields.map fun entry => .str entry.1
  | _ => .error .typeError

def iteratedOr (value : Json) (default : List Json) : Outcome (List Json) :=
  if value.truthy then iterated value else return default

def cweList (finding : Dict) : List Json :=
  match finding.get "cwe" with
  | .str single => if single ≠ "" then [.str single] else []
  | _ => []

def policyCheck (finding : Dict) : List Char :=
  match finding.get "check_id" with
  | .str value => asciiUpper (stripChars (chars value))
  | _ => []

def locationAnchor : Json → Outcome String
  | .obj location => do
    let path ← canonPath (Dict.get location "path")
    if path ≠ "" then return path
    canonPath (Dict.get location "resource")
  | _ => .error .attributeError

def cweNoNumber : Nat := 10 ^ 9

/-- What `int` reads at most, `sys.int_info.default_max_str_digits`. -/
def intMaxStrDigits : Nat := 4300

def isDigit (c : Char) : Bool := (digitValue c).isSome

/-- `re.search(r"(\d+)", text)`. -/
def firstDigits (text : List Char) : List Char := (text.dropWhile fun c => !isDigit c).takeWhile isDigit

def decimal (digits : List Char) : Nat := digits.foldl (fun n c => 10 * n + (digitValue c).getD 0) 0

def cweText (cwe : Json) : List Char := stripChars (asciiUpper (stripChars (chars (pyStr cwe))))

def rank (cwe : Json) : Outcome (Nat × List Char) := do
  let text := cweText cwe
  let digits := firstDigits text
  if digits = [] then return (cweNoNumber, text)
  require (digits.length ≤ intMaxStrDigits) (.valueError ("Exceeds the limit (" ++ toString intMaxStrDigits ++
    " digits) for integer string conversion: value has " ++ toString digits.length ++
    " digits; use sys.set_int_max_str_digits() to increase the limit"))
  return (decimal digits, text)

def ranksBelow (left right : Nat × List Char) : Bool :=
  left.1 < right.1 || (left.1 == right.1 && Dict.precedes left.2 right.2)

/-- `min(items, key=...)`: the first of the lowest, the keys beside the items. -/
def minByKey (first : (Nat × List Char) × Json) (items : List ((Nat × List Char) × Json)) : (Nat × List Char) × Json :=
  items.foldl (fun lowest item => if ranksBelow item.1 lowest.1 then item else lowest) first

def lowestCwe (listed : List Json) : Outcome (List Char) := do
  let cwes := listed.filter fun cwe => stripChars (chars (pyStr cwe)) ≠ []
  let ranked ← cwes.mapM fun cwe => do return (← rank cwe, cwe)
  match ranked with
  | [] => return chars "CWE-0"
  | first :: rest =>
    let text := cweText (minByKey first rest).2
    return if text = [] then chars "CWE-0" else text

def primaryCwe (finding : Dict) : Outcome (List Char) := do
  let listed ← iteratedOr (finding.get "cwes") (cweList finding)
  lowestCwe listed

def sortedSet (texts : List String) : List String :=
  texts.dedup.insertionSort fun left right => Dict.precedes (chars right) (chars left) = false

def anchorPaths (locations : List Json) : Outcome (List String) := do
  let canons ← locations.mapM locationAnchor
  return sortedSet (canons.filter (· ≠ ""))

def pathOf : Json → Json
  | .obj location => Dict.get location "path"
  | _ => .null

def degenerateIdentity (locations : List Json) : Failure :=
  .valueError ("refusing to fingerprint a finding with no usable location: every path in " ++
    pyRepr (.arr (locations.map pathOf)) ++ " canonicalizes to empty. Name the artifact the finding concerns " ++
    "(an absent SECURITY.md is still 'SECURITY.md'), or use a controlled pseudo-path from traust-contracts " ++
    "enums/v1/repo-scope-path.json when it genuinely concerns no artifact.")

def identityComponents (repo : String) (paths : List String) (cwe check : List Char) : List (List Char) :=
  let components := [chars repo, [';'].intercalate (paths.map chars), cwe]
  if check ≠ [] then components ++ [check] else components

def fingerprint (H : HashFunction) (finding : Dict) (repoUrl : Option String) (strict : Bool) : Outcome String := do
  let locations ← iteratedOr (finding.get "locations") []
  let paths ← anchorPaths locations
  require (strict = false ∨ paths ≠ []) (degenerateIdentity locations)
  let cwe ← primaryCwe finding
  let components := identityComponents (canonRepo repoUrl) paths cwe (policyCheck finding)
  return hexDigest H (utf8 (['|'].intercalate components))

section Attribution

def locationPath : Json → Outcome String
  | .obj location => canonPath (Dict.get location "path")
  | _ => .error .attributeError

def pathsV1 (finding : Dict) : Outcome (List String) := do
  let locations ← iteratedOr (finding.get "locations") []
  let canons ← locations.mapM locationPath
  return sortedSet canons

def pathsV2 (finding : Dict) : Outcome (List String) := do
  let locations ← iteratedOr (finding.get "locations") []
  let canons ← locations.mapM locationPath
  return sortedSet (canons.filter (· ≠ ""))

def pathsV3 (finding : Dict) : Outcome (List String) := do
  let locations ← iteratedOr (finding.get "locations") []
  anchorPaths locations

def cweCurrent (finding : Dict) : Outcome (List Char) := do
  let cwe ← primaryCwe finding
  let check := policyCheck finding
  return if check ≠ [] then cwe ++ '|' :: check else cwe

def cweFirst (finding : Dict) : Outcome (List Char) := do
  let listed ← iteratedOr (finding.get "cwes") []
  match listed.find? Json.truthy with
  | none => return chars "CWE-0"
  | some (.str text) => return asciiUpper (stripChars (chars text))
  | some _ => .error .attributeError

structure Rung where
  version : String
  pathsOf : Dict → Outcome (List String)
  cweOf : Dict → Outcome (List Char)

/-- Newest first, so that attribution reports the most recent recipe that matches. -/
def algoLadder : List Rung :=
  [⟨"v3", pathsV3, cweCurrent⟩, ⟨"v2", pathsV2, cweFirst⟩, ⟨"v1", pathsV1, cweFirst⟩]

def ladderHash (H : HashFunction) (repoUrl : Option String) (paths : List String) (cwe : List Char) : String :=
  hexDigest H (utf8 (['|'].intercalate [chars (canonRepo repoUrl), [';'].intercalate (paths.map chars), cwe]))

def Rung.stamp (rung : Rung) (H : HashFunction) (finding : Dict) (repoUrl : Option String) : Outcome String := do
  let paths ← rung.pathsOf finding
  let cwe ← rung.cweOf finding
  return ladderHash H repoUrl paths cwe

def climbLadder (H : HashFunction) (finding : Dict) (stamp : String) (candidate : Option String) :
    List Rung → Outcome (Option String)
  | [] => return none
  | rung :: rungs => do
    let made ← rung.stamp H finding candidate
    if made = stamp then return some rung.version
    climbLadder H finding stamp candidate rungs

def attributionFrom (H : HashFunction) (finding : Dict) (stamp : String) (seen : List (Option String)) :
    List (Option String) → Outcome (Option String)
  | [] => return none
  | candidate :: candidates =>
    if seen.contains candidate then attributionFrom H finding stamp seen candidates
    else do
      let found ← climbLadder H finding stamp candidate algoLadder
      if found.isSome then return found
      attributionFrom H finding stamp (seen ++ [candidate]) candidates

def attribution (H : HashFunction) (finding : Dict) (stamp : String) (candidates : List (Option String)) :
    Outcome (Option String) :=
  attributionFrom H finding stamp [] candidates

end Attribution

end LedgerModel
