import TraustLedger.Library.Sha256
import TraustLedger.Proofs.FingerprintParts

namespace LedgerProof

open Hashing Python Runs Trimming Sha256 LedgerModel

def SameLocations (locations others : List Json) : Prop :=
  (∀ location ∈ locations, location ∈ others) ∧
    ∀ location ∈ others, location ∈ locations ∨ locationAnchor location = .ok ""

def cweNumber (cwe : Json) : Option Nat :=
  if firstDigits (cweText cwe) = [] then none else some (decimal (firstDigits (cweText cwe)))

/-- The entry has a number, and an entry of the list, such as the primary one, has a smaller number. -/
def NumberedAbove (cwes : List Json) (cwe : Json) : Prop :=
  ∃ number, cweNumber cwe = some number ∧ ∃ held ∈ cwes, ∃ smaller, cweNumber held = some smaller ∧ smaller < number

/-- The same entries, in any order and any number of times, and others with larger numbers. -/
def SameCwes (cwes others : List Json) : Prop :=
  (∀ cwe ∈ cwes, cwe ∈ others) ∧ ∀ cwe ∈ others, cwe ∈ cwes ∨ NumberedAbove cwes cwe

inductive Relisted (R : List Json → List Json → Prop) : Json → Json → Prop
  | same (value : Json) : Relisted R value value
  | items {items others : List Json} (related : R items others) : Relisted R (.arr items) (.arr others)
  | absent {value : Json} {others : List Json} (empty : value.truthy = false) (related : R [] others) :
    Relisted R value (.arr others)

/-- Two reports of one finding. -/
structure Reworded (finding other : Dict) : Prop where
  locations : Relisted SameLocations (finding.get "locations") (other.get "locations")
  cwes : Relisted SameCwes (finding.get "cwes") (other.get "cwes")
  single : other.get "cwe" = finding.get "cwe"
  check : other.get "check_id" = finding.get "check_id"

def ShortNumbers (finding : Dict) : Prop :=
  ∀ listed, iteratedOr (finding.get "cwes") (cweList finding) = .ok listed → ∀ cwe ∈ listed, ShortNumber cwe

section Locations

theorem SameLocations.anchorPaths_iff {locations others : List Json} (same : SameLocations locations others)
    (paths : List String) : anchorPaths others = .ok paths ↔ anchorPaths locations = .ok paths := by
  rw [anchorPaths_ok_iff, anchorPaths_ok_iff]
  have each : (∀ location ∈ others, ∃ anchor, locationAnchor location = .ok anchor) ↔
      ∀ location ∈ locations, ∃ anchor, locationAnchor location = .ok anchor := by
    constructor
    · intro all location member
      exact all location (same.1 location member)
    · intro all location member
      rcases same.2 location member with held | empty
      · exact all location held
      · exact ⟨"", empty⟩
  have anchors : ∀ path, (path ≠ "" ∧ ∃ location ∈ others, locationAnchor location = .ok path) ↔
      (path ≠ "" ∧ ∃ location ∈ locations, locationAnchor location = .ok path) := by
    intro path
    refine and_congr_right fun filled => ⟨?_, ?_⟩
    · intro found
      rcases found with ⟨location, member, anchored⟩
      rcases same.2 location member with held | empty
      · exact ⟨location, held, anchored⟩
      · rw [anchored, Except.ok.injEq] at empty
        exact absurd empty filled
    · intro found
      rcases found with ⟨location, member, anchored⟩
      exact ⟨location, same.1 location member, anchored⟩
  simp only [each, anchors]

theorem Relisted.anchors_iff {value other : Json} (relisted : Relisted SameLocations value other)
    (paths : List String) :
    (∃ listed, iteratedOr other [] = .ok listed ∧ anchorPaths listed = .ok paths) ↔
      ∃ listed, iteratedOr value [] = .ok listed ∧ anchorPaths listed = .ok paths := by
  have lists : ∀ {value other : Json} {locations others : List Json}, iteratedOr value [] = .ok locations →
      iteratedOr other [] = .ok others → SameLocations locations others →
        ((∃ listed, iteratedOr other [] = .ok listed ∧ anchorPaths listed = .ok paths) ↔
          ∃ listed, iteratedOr value [] = .ok listed ∧ anchorPaths listed = .ok paths) := by
    intro value other locations others first second same
    simp only [first, second, Except.ok.injEq, exists_eq_left', same.anchorPaths_iff]
  cases relisted with
  | same => rfl
  | items same => exact lists (iteratedOr_arr _) (iteratedOr_arr _) same
  | absent empty same => exact lists (by rw [iteratedOr, if_neg (by simp [empty])]; rfl) (iteratedOr_arr _) same

end Locations

section Cwes

theorem rankValue_of_number {cwe : Json} {number : Nat} (numbered : cweNumber cwe = some number) :
    (rankValue cwe).1 = number ∧ ¬ blankCwe cwe := by
  unfold cweNumber at numbered
  split at numbered
  · cases numbered
  · next digits =>
    refine ⟨?_, ?_⟩
    · rw [rankValue, if_neg digits]
      exact Option.some.inj numbered
    · intro blank
      rw [cweText_eq_nil_iff.mpr blank] at digits
      exact digits rfl

theorem NumberedAbove.held {cwes : List Json} {cwe : Json} (above : NumberedAbove cwes cwe) :
    ∃ held ∈ cwes, ¬ blankCwe held ∧ (rankValue held).1 < (rankValue cwe).1 := by
  rcases above with ⟨number, numbered, held, member, smaller, numberedHeld, less⟩
  rcases rankValue_of_number numbered with ⟨same, _⟩
  rcases rankValue_of_number numberedHeld with ⟨sameHeld, filled⟩
  exact ⟨held, member, filled, by omega⟩

theorem SameCwes.isLowest_iff {cwes others : List Json} (same : SameCwes cwes others) (text : List Char) :
    IsLowest others text ↔ IsLowest cwes text := by
  constructor
  · intro lowest
    rcases lowest with ⟨blank, rfl⟩ | ⟨cwe, member, filled, rfl, lowest⟩
    · exact Or.inl ⟨fun cwe member => blank cwe (same.1 cwe member), rfl⟩
    · rcases same.2 cwe member with listed | above
      · exact Or.inr ⟨cwe, listed, filled, rfl, fun other held => lowest other (same.1 other held)⟩
      · -- an entry with a larger number is not the lowest
        rcases above.held with ⟨held, within, filledHeld, less⟩
        have order := lowest held (same.1 held within) filledHeld
        rw [ranksBelow_iff.mpr (Or.inl less)] at order
        cases order
  · intro lowest
    rcases lowest with ⟨blank, rfl⟩ | ⟨cwe, member, filled, rfl, lowest⟩
    · refine Or.inl ⟨?_, rfl⟩
      intro cwe member
      rcases same.2 cwe member with listed | above
      · exact blank cwe listed
      · rcases above.held with ⟨held, within, filled, _⟩
        exact absurd (blank held within) filled
    · refine Or.inr ⟨cwe, same.1 cwe member, filled, rfl, ?_⟩
      intro other held filledOther
      rcases same.2 other held with listed | above
      · exact lowest other listed filledOther
      · rcases above.held with ⟨smaller, within, filledSmaller, less⟩
        refine not_ranksBelow_trans (lowest smaller within filledSmaller) ?_
        exact not_ranksBelow_iff.mpr (Or.inl less)

theorem SameCwes.lowestCwe_iff {cwes others : List Json} (same : SameCwes cwes others) (text : List Char) :
    lowestCwe others = .ok text ↔ lowestCwe cwes = .ok text ∧ ∀ cwe ∈ others, ShortNumber cwe := by
  rw [lowestCwe_ok_iff, lowestCwe_ok_iff, same.isLowest_iff]
  constructor
  · intro given
    exact ⟨⟨fun cwe member => given.1 cwe (same.1 cwe member), given.2⟩, given.1⟩
  · intro given
    exact ⟨given.2, given.1.2⟩

theorem SameCwes.eq_nil {others : List Json} (same : SameCwes [] others) : others = [] := by
  rw [List.eq_nil_iff_forall_not_mem]
  intro cwe member
  rcases same.2 cwe member with listed | above
  · cases listed
  · rcases above.held with ⟨held, within, _⟩
    cases within

theorem Relisted.cwes_cases {value other : Json} (relisted : Relisted SameCwes value other) (default : List Json) :
    iteratedOr other default = iteratedOr value default ∨
      ∃ cwes others, iteratedOr value default = .ok cwes ∧ iteratedOr other default = .ok others ∧
        SameCwes cwes others := by
  cases relisted with
  | same => exact Or.inl rfl
  | @items cwes others same =>
    cases cwes with
    | nil => exact Or.inl (by rw [same.eq_nil])
    | cons cwe cwes =>
      cases others with
      | nil => exact absurd (same.1 cwe List.mem_cons_self) List.not_mem_nil
      | cons other others => exact Or.inr ⟨_, _, rfl, rfl, same⟩
  | absent empty same =>
    rw [same.eq_nil, iteratedOr, iteratedOr, if_neg (by simp [Json.truthy]), if_neg (by simp [empty])]
    exact Or.inl rfl

theorem Reworded.primaryCwe_iff {finding other : Dict} (reworded : Reworded finding other) (text : List Char) :
    primaryCwe other = .ok text ↔ primaryCwe finding = .ok text ∧ ShortNumbers other := by
  have single : cweList other = cweList finding := by
    rw [cweList, cweList, reworded.single]
  unfold primaryCwe ShortNumbers
  rw [single]
  rcases reworded.cwes.cwes_cases (cweList finding) with same | ⟨cwes, others, listed, relisted, same⟩
  · rw [same]
    refine ⟨fun found => ⟨found, ?_⟩, And.left⟩
    intro listed known
    rw [known] at found
    exact shortNumber_of_lowestCwe found
  · rw [listed, relisted]
    have short : (∀ listed, (.ok others : Outcome (List Json)) = .ok listed → ∀ cwe ∈ listed, ShortNumber cwe) ↔
        ∀ cwe ∈ others, ShortNumber cwe := by
      simp
    rw [short]
    exact same.lowestCwe_iff text

end Cwes

/-- How a report was written changes no fingerprint, except that one may be refused: exactly where an added CWE has a
    number that `int` does not read. -/
theorem fingerprint_reworded_iff {finding other : Dict} (reworded : Reworded finding other) (H : HashFunction)
    (repoUrl : Option String) (strict : Bool) :
    (∀ value, fingerprint H other repoUrl strict = .ok value → fingerprint H finding repoUrl strict = .ok value) ∧
      ∀ value, fingerprint H finding repoUrl strict = .ok value →
        (fingerprint H other repoUrl strict = .ok value ↔ ShortNumbers other) := by
  have parts : ∀ parts, identityParts other repoUrl = .ok parts ↔
      identityParts finding repoUrl = .ok parts ∧ ShortNumbers other := by
    intro parts
    have check : policyCheck other = policyCheck finding := by
      rw [policyCheck, policyCheck, reworded.check]
    rw [identityParts_ok_iff, identityParts_ok_iff, reworded.primaryCwe_iff, reworded.locations.anchors_iff, check]
    tauto
  have values : ∀ value, fingerprint H other repoUrl strict = .ok value ↔
      fingerprint H finding repoUrl strict = .ok value ∧ ShortNumbers other := by
    intro value
    simp only [fingerprint_ok_iff, parts]
    constructor
    · intro read
      rcases read with ⟨read, ⟨known, short⟩, rest⟩
      exact ⟨⟨read, known, rest⟩, short⟩
    · intro read
      rcases read with ⟨⟨read, known, rest⟩, short⟩
      exact ⟨read, ⟨known, short⟩, rest⟩
  refine ⟨fun value found => ((values value).mp found).1, fun value found => ?_⟩
  rw [values]
  exact ⟨And.right, fun short => ⟨found, short⟩⟩

def located (path : String) : Json := .obj [("path", .str path)]

def firstReport : Dict :=
  Dict.ofList [("locations", .arr [located "src/a.go", located "src/b.go"]), ("cwes", .arr [.str "CWE-79"])]

def secondReport : Dict :=
  Dict.ofList [("locations", .arr [located "src/b.go", located "./", located "src/a.go", located "src/b.go"]),
    ("cwes", .arr [.str "CWE-352", .str "CWE-79"])]

theorem fingerprint_reworded_iff_reordered :
    ∃ value, fingerprint sha256 firstReport (some "https://host/repo") true = .ok value ∧
      fingerprint sha256 secondReport (some "https://host/repo") true = .ok value := by
  have locations : SameLocations [located "src/a.go", located "src/b.go"]
      [located "src/b.go", located "./", located "src/a.go", located "src/b.go"] := by
    unfold SameLocations
    decide +kernel
  have cwes : SameCwes [.str "CWE-79"] [.str "CWE-352", .str "CWE-79"] := by
    refine ⟨by decide +kernel, List.forall_mem_cons.mpr ⟨Or.inr ⟨352, by decide +kernel, .str "CWE-79",
      List.mem_cons_self, 79, by decide +kernel, by decide⟩, ?_⟩⟩
    intro cwe member
    exact Or.inl member
  have reworded : Reworded firstReport secondReport := ⟨.items locations, .items cwes, rfl, rfl⟩
  have short : ShortNumbers secondReport := by
    intro listed known
    cases known
    unfold ShortNumber
    decide +kernel
  have accepted : (fingerprint sha256 firstReport (some "https://host/repo") true).isOk = true := by decide +kernel
  rcases exists_of_isOk accepted with ⟨value, found⟩
  exact ⟨value, found, ((fingerprint_reworded_iff reworded sha256 _ true).2 value found).mpr short⟩

section LongNumbers

theorem le_decimal_fold (digits : List Char) (start : Nat) :
    start ≤ digits.foldl (fun n c => 10 * n + (digitValue c).getD 0) start := by
  induction digits generalizing start with
  | nil => exact Nat.le_refl _
  | cons c digits ih =>
    have step := ih (10 * start + (digitValue c).getD 0)
    rw [List.foldl_cons]
    omega

theorem nines_text (n : Nat) : cweText (.str (String.ofList (List.replicate (n + 1) '9'))) = List.replicate (n + 1) '9' ∧
    firstDigits (List.replicate (n + 1) '9') = List.replicate (n + 1) '9' := by
  have digit : isDigit '9' = true := by decide +kernel
  constructor
  · have ends : stripChars (List.replicate (n + 1) '9') = List.replicate (n + 1) '9' := by
      rw [stripChars_eq_self_iff]
      constructor
      · rw [List.replicate_succ]
        exact headNot_cons.mpr (by decide)
      · rw [List.replicate_succ']
        exact lastNot_concat.mpr (by decide)
    rw [cweText_eq, pyStr, chars_ofList, ends, asciiUpper, List.map_replicate]
    rfl
  · rw [firstDigits, List.replicate_succ, List.dropWhile_cons_of_neg (by simp [digit]), ← List.replicate_succ]
    rw [List.takeWhile_eq_self_iff]
    intro c member
    rw [List.eq_of_mem_replicate member, digit]

theorem nines_large (n : Nat) : 79 < decimal (List.replicate (n + 3) '9') := by
  have bound := le_decimal_fold (List.replicate n '9') 999
  rw [decimal, List.replicate_succ, List.replicate_succ, List.replicate_succ]
  simp only [List.foldl_cons]
  exact Nat.lt_of_lt_of_le (by decide) bound

def reportWith (entry : Json) : Dict := firstReport.set "cwes" (.arr [.str "CWE-79", entry])

theorem get_reportWith (entry : Json) : (reportWith entry).get "cwes" = .arr [.str "CWE-79", entry] := by
  rw [reportWith, Dict.get_set, if_pos rfl]

theorem reworded_reportWith {entry : Json} {number : Nat} (numbered : cweNumber entry = some number)
    (larger : 79 < number) : Reworded firstReport (reportWith entry) := by
  have cwes : SameCwes [.str "CWE-79"] [.str "CWE-79", entry] := by
    refine ⟨by simp, ?_⟩
    intro cwe member
    rcases List.mem_cons.mp member with rfl | later
    · exact Or.inl List.mem_cons_self
    · rw [List.mem_singleton.mp later]
      exact Or.inr ⟨number, numbered, .str "CWE-79", List.mem_cons_self, 79, by decide +kernel, larger⟩
  refine ⟨.same _, ?_, rfl, rfl⟩
  rw [get_reportWith]
  exact .items cwes

theorem reportWith_refused {entry : Json} (long : ¬ ShortNumber entry) (repoUrl : Option String) (strict : Bool)
    (value : String) : fingerprint sha256 (reportWith entry) repoUrl strict ≠ .ok value := by
  intro found
  rcases fingerprint_ok_iff.mp found with ⟨parts, known, _⟩
  have primary := (identityParts_ok_iff.mp known).2.1
  rw [primaryCwe, get_reportWith] at primary
  exact long (shortNumber_of_lowestCwe primary entry (by simp))

end LongNumbers

def longNumber : Json := .str (String.ofList (List.replicate (intMaxStrDigits + 1) '9'))

/-- A CWE with a number of 4301 digits, larger than the primary one, takes the fingerprint away. -/
theorem long_number_refused :
    Reworded firstReport (reportWith longNumber) ∧
      (∃ value, fingerprint sha256 firstReport (some "https://host/repo") false = .ok value) ∧
      ∀ value, fingerprint sha256 (reportWith longNumber) (some "https://host/repo") false ≠ .ok value := by
  rcases nines_text intMaxStrDigits with ⟨text, digits⟩
  have number : cweNumber longNumber = some (decimal (List.replicate (intMaxStrDigits + 1) '9')) := by
    rw [cweNumber, longNumber, text, digits, if_neg (by simp)]
  have long : ¬ ShortNumber longNumber := by
    rw [ShortNumber, longNumber, text, digits, List.length_replicate]
    omega
  exact ⟨reworded_reportWith number (nines_large 4298), exists_of_isOk (by decide +kernel),
    reportWith_refused long _ false⟩

end LedgerProof
