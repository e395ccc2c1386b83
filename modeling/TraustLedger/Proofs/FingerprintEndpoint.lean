import TraustLedger.FingerprintHandler
import TraustLedger.Proofs.ReportWording
import TraustLedger.Storage

namespace LedgerProof

open Hashing Python Runs Sha256 LedgerModel

def TextOrAbsent (value : Json) : Prop := value = .null ∨ ∃ text, value = .str text

def locationsOf (finding : Dict) : List Json :=
  match finding.get "locations" with
  | .arr locations => locations
  | _ => []

/-- A finding as the endpoint is sent it: object locations with a text for path or resource, and text CWEs. -/
structure AuditShape (finding : Dict) : Prop where
  locations : finding.get "locations" = .null ∨ ∃ locations, finding.get "locations" = .arr locations ∧
    ∀ location ∈ locations, ∃ fields, location = .obj fields ∧ TextOrAbsent (Dict.get fields "path") ∧
      TextOrAbsent (Dict.get fields "resource")
  cwes : finding.get "cwes" = .null ∨ ∃ cwes, finding.get "cwes" = .arr cwes ∧ ∀ cwe ∈ cwes, ∃ text, cwe = .str text

def Degenerate (finding : Dict) : Prop := ∀ location ∈ locationsOf finding, locationAnchor location = .ok ""

def StampedAs (H : HashFunction) (repository : Option String) (finding stamped : Dict) : Prop :=
  if isEligible finding then ∃ value, fingerprint H finding repository false = .ok value ∧
    stamped = finding.set "fingerprint" (.str value)
  else stamped = finding

/-- The endpoint stamps the findings, or raises a service error over a finding that cannot be told apart. -/
structure OwnVocabulary (H : HashFunction) (body : FingerprintRequest) : Prop where
  outcome : (∃ response, computeFingerprints H body = .ok response ∧
      List.Forall₂ (StampedAs H body.repository) body.findings response.findings ∧
      response.stampedCount = (body.findings.filter isEligible).length) ∨
    ∃ failure, computeFingerprints H body = .error failure ∧ failure.isService = true ∧
      ∃ finding ∈ body.findings, isEligible finding = true ∧ Degenerate finding
  succeeds : (∃ response, computeFingerprints H body = .ok response) ↔
    ∀ finding ∈ body.findings, isEligible finding = true → ¬ Degenerate finding

section Raising

def Bare (failure : Failure) : Prop := failure.isService = false

theorem raises_canonPath (value : Json) : Raises Bare (canonPath value) := by
  cases value with
  | str text => exact .ok _
  | _ => exact .bind (.require rfl) fun _ _ => .ok _

theorem raises_locationAnchor (location : Json) : Raises Bare (locationAnchor location) := by
  cases location with
  | obj fields =>
    refine Raises.bind (raises_canonPath _) fun path _ => ?_
    split
    · exact .ok path
    · exact raises_canonPath _
  | _ => exact .error rfl

theorem raises_iteratedOr (value : Json) (default : List Json) : Raises Bare (iteratedOr value default) := by
  unfold iteratedOr
  split
  · cases value with
    | arr items => exact .ok _
    | str text => exact .ok _
    | obj fields => exact .ok _
    | _ => exact .error rfl
  · exact .ok _

theorem raises_rank (cwe : Json) : Raises Bare (rank cwe) := by
  unfold rank
  dsimp only
  split
  · exact .ok _
  · exact .bind (.require rfl) fun _ _ => .ok _

theorem raises_primaryCwe (finding : Dict) : Raises Bare (primaryCwe finding) := by
  refine Raises.bind (raises_iteratedOr _ _) fun listed _ => ?_
  rw [lowestCwe_eq]
  refine Raises.bind (Raises.mapM (fun cwe => ?_) _) fun ranked _ => ?_
  · exact .bind (raises_rank cwe) fun _ _ => .ok _
  · cases ranked with
    | nil => exact .ok _
    | cons first rest => exact .ok _

theorem raises_fingerprint (H : HashFunction) (finding : Dict) (repository : Option String) (strict : Bool) :
    Raises Bare (fingerprint H finding repository strict) := by
  refine Raises.bind (raises_iteratedOr _ _) fun locations _ => ?_
  refine Raises.bind ?_ fun paths _ => ?_
  · exact .bind (Raises.mapM raises_locationAnchor locations) fun canons _ => .ok _
  · refine Raises.bind (.require rfl) fun _ _ => ?_
    exact .bind (raises_primaryCwe finding) fun cwe _ => .ok _

theorem raises_strictFingerprint (H : HashFunction) (finding : Dict) (repository : Option String) :
    Raises Bare (strictFingerprint H finding repository) := by
  have raising := raises_fingerprint H finding repository true
  unfold strictFingerprint
  split
  · exact .ok _
  · next failure raised =>
    refine .error ?_
    split
    · rfl
    · exact raising failure raised

theorem raises_stampFindings (H : HashFunction) (repository : Option String) (findings : List Dict) :
    Raises Bare (stampFindings H repository findings) := by
  induction findings with
  | nil => exact .ok _
  | cons finding findings ih =>
    unfold stampFindings
    split
    · exact .bind ih fun _ _ => .ok _
    · refine Raises.bind (raises_strictFingerprint H finding repository) fun value _ => ?_
      exact .bind ih fun _ _ => .ok _

end Raising

section Stamping

variable {H : HashFunction} {repository : Option String} {finding : Dict}

theorem strictFingerprint_ok_iff {value : String} :
    strictFingerprint H finding repository = .ok value ↔ fingerprint H finding repository true = .ok value := by
  unfold strictFingerprint
  split
  · next made => rw [made]
  · next failure raised =>
    rw [raised]
    exact iff_of_false (by rintro ⟨⟩) (by rintro ⟨⟩)

theorem fingerprint_of_strict {value : String} (made : fingerprint H finding repository true = .ok value) :
    fingerprint H finding repository false = .ok value := by
  rcases fingerprint_ok_iff.mp made with ⟨parts, read, -, hashed⟩
  exact fingerprint_ok_iff.mpr ⟨parts, read, Or.inl rfl, hashed⟩

theorem stampFindings_ok {findings stamped : List Dict} {count : Nat}
    (accepted : stampFindings H repository findings = .ok (stamped, count)) :
    List.Forall₂ (StampedAs H repository) findings stamped ∧ count = (findings.filter isEligible).length ∧
      ∀ finding ∈ findings, isEligible finding = true → ∃ value, fingerprint H finding repository true = .ok value := by
  induction findings generalizing stamped count with
  | nil =>
    cases accepted
    exact ⟨.nil, rfl, by simp⟩
  | cons finding findings ih =>
    unfold stampFindings at accepted
    by_cases eligible : isEligible finding = true
    · rw [if_neg (by simp [eligible])] at accepted
      rcases bind_ok_iff.mp accepted with ⟨value, made, accepted⟩
      rcases bind_ok_iff.mp accepted with ⟨⟨rest, more⟩, later, result⟩
      cases result
      rcases ih later with ⟨pairs, counted, each⟩
      have strict := strictFingerprint_ok_iff.mp made
      refine ⟨.cons ?_ pairs, ?_, List.forall_mem_cons.mpr ⟨fun _ => ⟨value, strict⟩, each⟩⟩
      · rw [StampedAs, if_pos eligible]
        exact ⟨value, fingerprint_of_strict strict, rfl⟩
      · rw [List.filter_cons_of_pos eligible, List.length_cons, counted]
    · rw [if_pos (by simpa using eligible)] at accepted
      rcases bind_ok_iff.mp accepted with ⟨⟨rest, more⟩, later, result⟩
      cases result
      rcases ih later with ⟨pairs, counted, each⟩
      refine ⟨.cons ?_ pairs, ?_, List.forall_mem_cons.mpr ⟨fun wrong => absurd wrong eligible, each⟩⟩
      · rw [StampedAs, if_neg eligible]
      · rw [List.filter_cons_of_neg eligible, counted]

theorem exists_stampFindings {findings : List Dict} (each : ∀ finding ∈ findings, isEligible finding = true →
      ∃ value, fingerprint H finding repository true = .ok value) :
    ∃ result, stampFindings H repository findings = .ok result := by
  induction findings with
  | nil => exact ⟨_, rfl⟩
  | cons finding findings ih =>
    rcases List.forall_mem_cons.mp each with ⟨first, later⟩
    rcases ih later with ⟨⟨rest, more⟩, accepted⟩
    unfold stampFindings
    by_cases eligible : isEligible finding = true
    · rw [if_neg (by simp [eligible])]
      rcases first eligible with ⟨value, made⟩
      exact ⟨_, bind_ok_iff.mpr ⟨value, strictFingerprint_ok_iff.mpr made, bind_ok_iff.mpr ⟨_, accepted, rfl⟩⟩⟩
    · rw [if_pos (by simpa using eligible)]
      exact ⟨_, bind_ok_iff.mpr ⟨_, accepted, rfl⟩⟩

theorem computeFingerprints_ok_iff {body : FingerprintRequest} {response : FingerprintResponse} :
    computeFingerprints H body = .ok response ↔
      stampFindings H body.repository body.findings = .ok (response.findings, response.stampedCount) := by
  constructor
  · intro accepted
    rcases bind_ok_iff.mp accepted with ⟨⟨findings, count⟩, stamped, result⟩
    cases result
    exact stamped
  · intro stamped
    exact bind_ok_iff.mpr ⟨_, stamped, rfl⟩

end Stamping

section Domain

variable {H : HashFunction} {repository : Option String} {finding : Dict}

theorem exists_canonPath {value : Json} (text : TextOrAbsent value) : ∃ path, canonPath value = .ok path := by
  rcases text with rfl | ⟨text, rfl⟩
  · exact ⟨"", rfl⟩
  · exact ⟨_, rfl⟩

theorem exists_locationAnchor {fields : Dict} (path : TextOrAbsent (fields.get "path"))
    (resource : TextOrAbsent (fields.get "resource")) : ∃ anchor, locationAnchor (.obj fields) = .ok anchor := by
  rcases exists_canonPath path with ⟨first, canon⟩
  rcases exists_canonPath resource with ⟨second, other⟩
  by_cases blank : first = ""
  · refine ⟨second, bind_ok_iff.mpr ⟨first, canon, ?_⟩⟩
    rw [if_neg (by simp [blank])]
    exact other
  · refine ⟨first, bind_ok_iff.mpr ⟨first, canon, ?_⟩⟩
    rw [if_pos blank]
    rfl

theorem AuditShape.anchored (shaped : AuditShape finding) :
    ∀ location ∈ locationsOf finding, ∃ anchor, locationAnchor location = .ok anchor := by
  intro location member
  unfold locationsOf at member
  rcases shaped.locations with none | ⟨locations, listed, each⟩
  · rw [none] at member
    cases member
  · rw [listed] at member
    rcases each location member with ⟨fields, rfl, path, resource⟩
    exact exists_locationAnchor path resource

theorem AuditShape.iterated (shaped : AuditShape finding) :
    iteratedOr (finding.get "locations") [] = .ok (locationsOf finding) := by
  unfold locationsOf
  rcases shaped.locations with none | ⟨locations, listed, -⟩
  · rw [none]
    rfl
  · rw [listed]
    exact iteratedOr_arr locations

theorem AuditShape.iteratedCwes (shaped : AuditShape finding) :
    ∃ listed, iteratedOr (finding.get "cwes") (cweList finding) = .ok listed := by
  rcases shaped.cwes with none | ⟨cwes, listed, -⟩
  · rw [none]
    exact ⟨_, rfl⟩
  · rw [listed, iteratedOr]
    split
    · exact ⟨cwes, rfl⟩
    · exact ⟨_, rfl⟩

theorem primaryCwe_ok_iff (shaped : AuditShape finding) :
    (∃ cwe, primaryCwe finding = .ok cwe) ↔ ShortNumbers finding := by
  rcases shaped.iteratedCwes with ⟨listed, read⟩
  constructor
  · intro found
    rcases found with ⟨cwe, primary⟩
    rcases bind_ok_iff.mp primary with ⟨others, reread, lowest⟩
    intro again held
    cases reread.symm.trans held
    exact shortNumber_of_lowestCwe lowest
  · intro short
    rcases exists_lowestCwe (short listed read) with ⟨cwe, lowest, -⟩
    exact ⟨cwe, bind_ok_iff.mpr ⟨listed, read, lowest⟩⟩

theorem strict_ok_iff (shaped : AuditShape finding) :
    (∃ value, fingerprint H finding repository true = .ok value) ↔ ¬ Degenerate finding ∧ ShortNumbers finding := by
  rw [← primaryCwe_ok_iff shaped]
  constructor
  · intro made
    rcases made with ⟨value, made⟩
    rcases fingerprint_ok_iff.mp made with ⟨parts, read, filled, -⟩
    rcases identityParts_ok_iff.mp read with ⟨⟨locations, listed, paths⟩, primary, -, -⟩
    cases listed.symm.trans shaped.iterated
    refine ⟨?_, parts.cwe, primary⟩
    intro degenerate
    rcases List.exists_mem_of_ne_nil _ (filled.resolve_left (by decide)) with ⟨path, member⟩
    rcases ((anchorPaths_ok_iff.mp paths).2.2.2 path).mp member with ⟨named, location, held, anchored⟩
    cases (degenerate location held).symm.trans anchored
    exact named rfl
  · intro given
    rcases given with ⟨usable, cwe, primary⟩
    have mapped := mapM_ok (f := locationAnchor) (P := fun _ => True) (by simpa using shaped.anchored)
    rcases mapped with ⟨canons, mapped, -⟩
    have paths : anchorPaths (locationsOf finding) = .ok (sortedSet (canons.filter (· ≠ ""))) :=
      bind_ok_iff.mpr ⟨canons, mapped, rfl⟩
    have filled : sortedSet (canons.filter (· ≠ "")) ≠ [] := by
      intro empty
      apply usable
      intro location member
      rcases shaped.anchored location member with ⟨anchor, anchored⟩
      by_cases blank : anchor = ""
      · rw [anchored, blank]
      · have listed := ((anchorPaths_ok_iff.mp paths).2.2.2 anchor).mpr ⟨blank, location, member, anchored⟩
        rw [empty] at listed
        cases listed
    exact ⟨_, fingerprint_ok_iff.mpr ⟨⟨canonRepo repository, _, cwe, policyCheck finding⟩,
      identityParts_ok_iff.mpr ⟨⟨_, shaped.iterated, paths⟩, primary, rfl, rfl⟩, Or.inr filled, rfl⟩⟩

end Domain

/-- The error for a degenerate finding cannot be built, and a number too long for `int` is not caught: the endpoint
    keeps to its vocabulary exactly where it has nothing to refuse. -/
theorem own_vocabulary_iff (H : HashFunction) (body : FingerprintRequest)
    (shaped : ∀ finding ∈ body.findings, AuditShape finding) :
    OwnVocabulary H body ↔
      ∀ finding ∈ body.findings, isEligible finding = true → ¬ Degenerate finding ∧ ShortNumbers finding := by
  constructor
  · intro vocabulary
    rcases vocabulary.outcome with ⟨response, accepted, -⟩ | ⟨failure, raised, service, -⟩
    · intro finding member eligible
      rcases stampFindings_ok (computeFingerprints_ok_iff.mp accepted) with ⟨-, -, each⟩
      exact (strict_ok_iff (shaped finding member)).mp (each finding member eligible)
    · have bare : Raises Bare (computeFingerprints H body) :=
        .bind (raises_stampFindings H body.repository body.findings) fun _ _ => .ok _
      have own := bare failure raised
      rw [Bare, service] at own
      cases own
  · intro usable
    have each : ∀ finding ∈ body.findings, isEligible finding = true →
        ∃ value, fingerprint H finding body.repository true = .ok value :=
      fun finding member eligible => (strict_ok_iff (shaped finding member)).mpr (usable finding member eligible)
    rcases exists_stampFindings each with ⟨⟨findings, count⟩, stamped⟩
    have accepted : computeFingerprints H body = .ok ⟨findings, count⟩ := computeFingerprints_ok_iff.mpr stamped
    rcases stampFindings_ok stamped with ⟨pairs, counted, -⟩
    refine ⟨Or.inl ⟨_, accepted, pairs, counted⟩, ?_⟩
    exact iff_of_true ⟨_, accepted⟩ fun finding member eligible => (usable finding member eligible).1

def listedFinding (paths cwes : List String) : Dict :=
  Dict.ofList [("locations", .arr (paths.map located)), ("cwes", .arr (cwes.map .str))]

theorem auditShape_listed (paths cwes : List String) : AuditShape (listedFinding paths cwes) := by
  refine ⟨Or.inr ⟨paths.map located, rfl, ?_⟩, Or.inr ⟨cwes.map .str, rfl, ?_⟩⟩
  · intro location member
    rcases List.mem_map.mp member with ⟨path, -, rfl⟩
    exact ⟨_, rfl, Or.inr ⟨path, rfl⟩, Or.inl rfl⟩
  · intro entry member
    rcases List.mem_map.mp member with ⟨cwe, -, rfl⟩
    exact ⟨cwe, rfl⟩

def mixedRequest : FingerprintRequest where
  findings := [listedFinding ["src/a.go", "."] ["CWE-79"], Dict.ofList [("id", .str "F-2")]]
  repository := some "https://host/repo"

theorem own_vocabulary_mixed : OwnVocabulary sha256 mixedRequest ∧ okAnd (computeFingerprints sha256 mixedRequest)
    (fun response => response.stampedCount == 1) = true := by
  have shaped : ∀ finding ∈ mixedRequest.findings, AuditShape finding := by
    refine List.forall_mem_cons.mpr ⟨auditShape_listed _ _, List.forall_mem_cons.mpr ⟨?_, by simp⟩⟩
    exact ⟨Or.inl rfl, Or.inl rfl⟩
  refine ⟨(own_vocabulary_iff sha256 mixedRequest shaped).mpr ?_, by decide +kernel⟩
  refine List.forall_mem_cons.mpr ⟨fun _ => ⟨?_, ?_⟩, List.forall_mem_cons.mpr ⟨fun wrong => ?_, by simp⟩⟩
  · intro degenerate
    have anchored : locationAnchor (located "src/a.go") ≠ .ok "" := by decide +kernel
    exact anchored (degenerate (located "src/a.go") List.mem_cons_self)
  · intro listed known
    cases known
    unfold ShortNumber
    decide +kernel
  · cases wrong

def repoRoot : FingerprintRequest where
  findings := [listedFinding ["."] ["CWE-79"]]
  repository := some "https://host/repo"

/-- A finding whose only location is the root of the repository: the error that would say so takes no text. -/
theorem degenerate_finding_mistyped : (∀ finding ∈ repoRoot.findings, AuditShape finding) ∧
    computeFingerprints sha256 repoRoot = .error .typeError ∧ ¬ OwnVocabulary sha256 repoRoot := by
  have raised : computeFingerprints sha256 repoRoot = .error .typeError := by decide +kernel
  refine ⟨List.forall_mem_singleton.mpr (auditShape_listed _ _), raised, ?_⟩
  intro vocabulary
  rcases vocabulary.outcome with ⟨response, accepted, -⟩ | ⟨failure, other, service, -⟩
  · rw [raised] at accepted
    cases accepted
  · rw [raised] at other
    cases other
    cases service

end LedgerProof
