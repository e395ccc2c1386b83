import TraustLedger.Library.Sha256
import TraustLedger.Proofs.FingerprintParts

namespace LedgerProof

open Hashing Python Runs Trimming Sha256 LedgerModel

def FirstCweText (finding : Dict) : Prop :=
  ∀ listed, iteratedOr (finding.get "cwes") [] = .ok listed → ∀ first, listed.find? Json.truthy = some first →
    ∃ text, first = .str text

variable {H : HashFunction} {finding : Dict} {repoUrl candidate : Option String} {stamp : String}

section Rungs

def newest : Rung := ⟨"v3", pathsV3, cweCurrent⟩

def frozen (version : String) (pathsOf : Dict → Outcome (List String)) : Rung := ⟨version, pathsOf, cweFirst⟩

theorem algoLadder_eq : algoLadder = [newest, frozen "v2" pathsV2, frozen "v1" pathsV1] := rfl

theorem newest_stamp (repoUrl : Option String) : newest.stamp H finding repoUrl = fingerprint H finding repoUrl false := by
  have text : ∀ (repo : String) (paths : List String) (cwe check : List Char),
      ['|'].intercalate [chars repo, [';'].intercalate (paths.map chars), if check ≠ [] then cwe ++ '|' :: check else cwe] =
        ['|'].intercalate (identityComponents repo paths cwe check) := by
    intro repo paths cwe check
    unfold identityComponents
    split <;> simp [List.intercalate]
  simp only [newest, Rung.stamp, pathsV3, cweCurrent, fingerprint, ladderHash, text, bind_assoc, pure_bind]
  refine bind_congr_ok fun locations listed => bind_congr_ok fun paths anchored => ?_
  rfl

theorem fingerprint_lenient {strict : Bool} (minted : fingerprint H finding repoUrl strict = .ok stamp) :
    fingerprint H finding repoUrl false = .ok stamp := by
  rw [fingerprint_ok_iff] at minted ⊢
  rcases minted with ⟨parts, read, _, made⟩
  exact ⟨parts, read, Or.inl rfl, made⟩

theorem fingerprint_reads (minted : fingerprint H finding repoUrl false = .ok stamp) :
    (∃ locations, iteratedOr (finding.get "locations") [] = .ok locations ∧
      ∀ location ∈ locations, ∃ path, locationPath location = .ok path) ∧
      ∃ listed, iteratedOr (finding.get "cwes") [] = .ok listed := by
  rcases fingerprint_ok_iff.mp minted with ⟨parts, read, _, _⟩
  rcases identityParts_ok_iff.mp read with ⟨⟨locations, located, anchored⟩, primary, _, _⟩
  refine ⟨⟨locations, located, ?_⟩, ?_⟩
  · intro location member
    rcases (anchorPaths_ok_iff.mp anchored).1 location member with ⟨anchor, found⟩
    cases location with
    | obj fields =>
      rcases bind_ok_iff.mp found with ⟨path, canonical, _⟩
      exact ⟨path, canonical⟩
    | _ => cases found
  · rcases bind_ok_iff.mp primary with ⟨listed, iterating, _⟩
    unfold iteratedOr at iterating ⊢
    split
    · next filled =>
      rw [if_pos filled] at iterating
      exact ⟨listed, iterating⟩
    · exact ⟨[], rfl⟩

theorem exists_pathsV1 (minted : fingerprint H finding repoUrl false = .ok stamp) :
    ∃ paths, pathsV1 finding = .ok paths := by
  rcases (fingerprint_reads minted).1 with ⟨locations, located, each⟩
  rcases mapM_ok (P := fun _ => True) (by simpa using each) with ⟨canons, mapped, _⟩
  exact ⟨sortedSet canons, by simp [pathsV1, located, mapped, bind, Except.bind, pure, Except.pure]⟩

theorem exists_pathsV2 (minted : fingerprint H finding repoUrl false = .ok stamp) :
    ∃ paths, pathsV2 finding = .ok paths := by
  rcases (fingerprint_reads minted).1 with ⟨locations, located, each⟩
  rcases mapM_ok (P := fun _ => True) (by simpa using each) with ⟨canons, mapped, _⟩
  exact ⟨sortedSet (canons.filter (· ≠ "")), by simp [pathsV2, located, mapped, bind, Except.bind, pure, Except.pure]⟩

theorem exists_cweFirst (minted : fingerprint H finding repoUrl false = .ok stamp) (text : FirstCweText finding) :
    ∃ cwe, cweFirst finding = .ok cwe := by
  rcases (fingerprint_reads minted).2 with ⟨listed, iterating⟩
  simp only [cweFirst, iterating, bind, Except.bind]
  cases first : listed.find? Json.truthy with
  | none => exact ⟨_, rfl⟩
  | some entry =>
    rcases text listed iterating entry first with ⟨held, rfl⟩
    exact ⟨_, rfl⟩

theorem cweFirst_raises (other : ¬ FirstCweText finding) : ∃ failure, cweFirst finding = .error failure := by
  simp only [FirstCweText, not_forall] at other
  rcases other with ⟨listed, iterating, entry, first, wrong⟩
  refine ⟨.attributeError, ?_⟩
  simp only [cweFirst, iterating, bind, Except.bind, first]
  cases entry with
  | str text => exact absurd ⟨text, rfl⟩ wrong
  | _ => rfl

end Rungs

section Climbing

theorem climb_cons (rung : Rung) (rungs : List Rung) : climbLadder H finding stamp candidate (rung :: rungs) = (do
    let made ← rung.stamp H finding candidate
    if made = stamp then return some rung.version
    climbLadder H finding stamp candidate rungs) := rfl

theorem climb_sound {rungs : List Rung} {version : String}
    (found : climbLadder H finding stamp candidate rungs = .ok (some version)) :
    ∃ rung ∈ rungs, rung.version = version ∧ rung.stamp H finding candidate = .ok stamp := by
  induction rungs with
  | nil => cases found
  | cons rung rungs ih =>
    rw [climb_cons] at found
    rcases bind_ok_iff.mp found with ⟨made, stamped, found⟩
    split at found
    · next same =>
      cases found
      exact ⟨rung, List.mem_cons_self, rfl, same ▸ stamped⟩
    · rcases ih found with ⟨held, member, known⟩
      exact ⟨held, List.mem_cons_of_mem _ member, known⟩

theorem exists_climb {rungs : List Rung} (each : ∀ rung ∈ rungs, ∃ made, rung.stamp H finding candidate = .ok made) :
    ∃ found, climbLadder H finding stamp candidate rungs = .ok found := by
  induction rungs with
  | nil => exact ⟨none, rfl⟩
  | cons rung rungs ih =>
    rw [List.forall_mem_cons] at each
    rcases each.1 with ⟨made, stamped⟩
    simp only [climb_cons, stamped, bind, Except.bind]
    split
    · exact ⟨some rung.version, rfl⟩
    · exact ih each.2

theorem climb_newest (minted : fingerprint H finding candidate false = .ok stamp) :
    climbLadder H finding stamp candidate algoLadder = .ok (some "v3") := by
  rw [algoLadder_eq, climb_cons, newest_stamp, minted]
  exact if_pos rfl

theorem exists_fingerprint (minted : fingerprint H finding repoUrl false = .ok stamp) (candidate : Option String) :
    ∃ made, fingerprint H finding candidate false = .ok made := by
  rcases fingerprint_ok_iff.mp minted with ⟨parts, read, _, _⟩
  rcases identityParts_ok_iff.mp read with ⟨located, primary, _, check⟩
  have other : identityParts finding candidate = .ok { parts with repo := canonRepo candidate } :=
    identityParts_ok_iff.mpr ⟨located, primary, rfl, check⟩
  exact ⟨_, fingerprint_ok_iff.mpr ⟨_, other, Or.inl rfl, rfl⟩⟩

theorem exists_climb_ladder (minted : fingerprint H finding repoUrl false = .ok stamp) (text : FirstCweText finding)
    (candidate : Option String) : ∃ found, climbLadder H finding stamp candidate algoLadder = .ok found := by
  rcases exists_pathsV1 minted with ⟨first, readFirst⟩
  rcases exists_pathsV2 minted with ⟨second, readSecond⟩
  rcases exists_cweFirst minted text with ⟨cwe, readCwe⟩
  refine exists_climb ?_
  rw [algoLadder_eq, List.forall_mem_cons, List.forall_mem_cons, List.forall_mem_singleton, newest_stamp]
  refine ⟨exists_fingerprint minted candidate, ?_, ?_⟩
  · exact ⟨ladderHash H candidate second cwe, by simp [frozen, Rung.stamp, readSecond, readCwe, bind, Except.bind, pure,
      Except.pure]⟩
  · exact ⟨ladderHash H candidate first cwe, by simp [frozen, Rung.stamp, readFirst, readCwe, bind, Except.bind, pure,
      Except.pure]⟩

theorem climb_raises (minted : fingerprint H finding repoUrl false = .ok stamp) (other : ¬ FirstCweText finding)
    (apart : fingerprint H finding candidate false ≠ .ok stamp) :
    ∃ failure, climbLadder H finding stamp candidate algoLadder = .error failure := by
  rcases exists_fingerprint minted candidate with ⟨made, current⟩
  rcases exists_pathsV2 minted with ⟨second, readSecond⟩
  rcases cweFirst_raises other with ⟨failure, raised⟩
  have differs : made ≠ stamp := by
    intro same
    exact apart (same ▸ current)
  refine ⟨failure, ?_⟩
  rw [algoLadder_eq, climb_cons, newest_stamp, current]
  simp only [bind, Except.bind, if_neg differs]
  simp [climbLadder, frozen, Rung.stamp, readSecond, raised, bind, Except.bind]

end Climbing

section Attribution

theorem attributionFrom_cons (seen candidates : List (Option String)) :
    attributionFrom H finding stamp seen (candidate :: candidates) =
      if seen.contains candidate then attributionFrom H finding stamp seen candidates
      else (do
        let found ← climbLadder H finding stamp candidate algoLadder
        if found.isSome then return found
        attributionFrom H finding stamp (seen ++ [candidate]) candidates) := rfl

theorem attributionFrom_sound {seen candidates : List (Option String)} {version : String}
    (found : attributionFrom H finding stamp seen candidates = .ok (some version)) :
    ∃ candidate ∈ candidates, ∃ rung ∈ algoLadder, rung.version = version ∧
      rung.stamp H finding candidate = .ok stamp := by
  induction candidates generalizing seen with
  | nil => cases found
  | cons candidate candidates ih =>
    rw [attributionFrom_cons] at found
    split at found
    · rcases ih found with ⟨held, member, known⟩
      exact ⟨held, List.mem_cons_of_mem _ member, known⟩
    · rcases bind_ok_iff.mp found with ⟨answer, climbed, found⟩
      split at found
      · cases found
        exact ⟨candidate, List.mem_cons_self, climb_sound climbed⟩
      · rcases ih found with ⟨held, member, known⟩
        exact ⟨held, List.mem_cons_of_mem _ member, known⟩

theorem attributionFrom_returns (minted : fingerprint H finding repoUrl false = .ok stamp) (text : FirstCweText finding)
    {seen candidates : List (Option String)} (unseen : repoUrl ∉ seen) (member : repoUrl ∈ candidates) :
    ∃ version, attributionFrom H finding stamp seen candidates = .ok (some version) := by
  induction candidates generalizing seen with
  | nil => cases member
  | cons candidate candidates ih =>
    rw [attributionFrom_cons]
    split
    · next known =>
      rcases List.mem_cons.mp member with rfl | later
      · exact absurd (List.contains_iff_mem.mp known) unseen
      · exact ih unseen later
    · rcases exists_climb_ladder minted text candidate with ⟨found, climbed⟩
      simp only [climbed, bind, Except.bind]
      cases found with
      | some version => exact ⟨version, rfl⟩
      | none =>
        have apart : repoUrl ≠ candidate := by
          rintro rfl
          rw [climb_newest minted] at climbed
          cases climbed
        have later := (List.mem_cons.mp member).resolve_left apart
        exact ih (by simp [unseen, apart]) later

theorem attribution_newest {candidates : List (Option String)} (first : candidates.head? = some candidate)
    (minted : fingerprint H finding candidate false = .ok stamp) :
    attribution H finding stamp candidates = .ok (some "v3") := by
  rcases List.head?_eq_some_iff.mp first with ⟨rest, rfl⟩
  rw [attribution, attributionFrom_cons, if_neg (by simp), climb_newest minted]
  rfl

theorem attribution_raises {candidates : List (Option String)} (minted : fingerprint H finding repoUrl false = .ok stamp)
    (other : ¬ FirstCweText finding) (first : candidates.head? = some candidate)
    (apart : fingerprint H finding candidate false ≠ .ok stamp) :
    ∃ failure, attribution H finding stamp candidates = .error failure := by
  rcases List.head?_eq_some_iff.mp first with ⟨rest, rfl⟩
  rcases climb_raises minted other apart with ⟨failure, raised⟩
  refine ⟨failure, ?_⟩
  rw [attribution, attributionFrom_cons, if_neg (by simp), raised]
  rfl

/-- What attribution promises of a stamp the recipe minted for one of the candidates. -/
structure Accounted (H : HashFunction) (finding : Dict) (stamp : String) (repoUrl : Option String)
    (candidates : List (Option String)) : Prop where
  returned : ∃ version, attribution H finding stamp candidates = .ok (some version)
  current : (∀ candidate ∈ candidates, candidate = repoUrl) → attribution H finding stamp candidates = .ok (some "v3")
  reproduced : ∀ version, attribution H finding stamp candidates = .ok (some version) →
    ∃ candidate ∈ candidates, ∃ rung ∈ algoLadder, rung.version = version ∧
      rung.stamp H finding candidate = .ok stamp

/-- A minted stamp is accounted for exactly where the first CWE is a text or the first candidate mints it too; and a
    version that is returned, for any stamp, reproduces it. -/
theorem attribution_accounted_iff (H : HashFunction) (finding : Dict) (repoUrl : Option String) (strict : Bool)
    (stamp : String) (candidates : List (Option String))
    (minted : fingerprint H finding repoUrl strict = .ok stamp) (listed : repoUrl ∈ candidates) :
    (Accounted H finding stamp repoUrl candidates ↔ FirstCweText finding ∨
      ∃ first, candidates.head? = some first ∧ fingerprint H finding first false = .ok stamp) ∧
      ∀ other others version, attribution H finding other others = .ok (some version) →
        ∃ candidate ∈ others, ∃ rung ∈ algoLadder, rung.version = version ∧
          rung.stamp H finding candidate = .ok other := by
  have lenient := fingerprint_lenient minted
  refine ⟨?_, fun _ _ _ found => attributionFrom_sound found⟩
  constructor
  · intro accounted
    by_contra neither
    rw [not_or] at neither
    cases first : candidates.head? with
    | none =>
      rw [List.head?_eq_none_iff.mp first] at listed
      cases listed
    | some candidate =>
      have apart : fingerprint H finding candidate false ≠ .ok stamp := fun same => neither.2 ⟨candidate, first, same⟩
      rcases attribution_raises lenient neither.1 first apart with ⟨failure, raised⟩
      rcases accounted.returned with ⟨version, found⟩
      rw [raised] at found
      cases found
  · intro condition
    refine ⟨?_, ?_, fun version found => attributionFrom_sound found⟩
    · rcases condition with text | ⟨first, start, same⟩
      · exact attributionFrom_returns lenient text List.not_mem_nil listed
      · exact ⟨"v3", attribution_newest start same⟩
    · intro only
      cases first : candidates.head? with
      | none =>
        rw [List.head?_eq_none_iff.mp first] at listed
        cases listed
      | some candidate =>
        have same := only candidate (List.mem_of_mem_head? first)
        exact attribution_newest first (same ▸ lenient)

end Attribution

section Samples

def findingListing (cwe : Json) : Dict :=
  Dict.ofList [("cwes", .arr [cwe]), ("locations", .arr [.obj [("path", .str "a.go")]])]

theorem attribution_accounted_second : ∃ stamp,
    fingerprint sha256 (findingListing (.str "CWE-79")) (some "r") true = .ok stamp ∧
      Accounted sha256 (findingListing (.str "CWE-79")) stamp (some "r") [none, some "r"] := by
  have minted : (fingerprint sha256 (findingListing (.str "CWE-79")) (some "r") true).isOk = true := by decide +kernel
  rcases exists_of_isOk minted with ⟨stamp, minted⟩
  refine ⟨stamp, minted, ?_⟩
  refine (attribution_accounted_iff sha256 _ (some "r") true stamp [none, some "r"] minted (by simp)).1.mpr (Or.inl ?_)
  intro listed iterating first found
  cases iterating
  cases found
  exact ⟨"CWE-79", rfl⟩

/-- A number among the CWEs has a fingerprint, and raises where another candidate stands before the repository. -/
theorem number_unattributed : ∃ stamp, fingerprint sha256 (findingListing (.int 79)) (some "r") true = .ok stamp ∧
    (∃ failure, attribution sha256 (findingListing (.int 79)) stamp [none, some "r"] = .error failure) ∧
      ¬ Accounted sha256 (findingListing (.int 79)) stamp (some "r") [none, some "r"] := by
  have refused : okAnd (fingerprint sha256 (findingListing (.int 79)) (some "r") true) (fun stamp =>
      !(attribution sha256 (findingListing (.int 79)) stamp [none, some "r"]).isOk) = true := by
    decide +kernel
  rcases okAnd_iff.mp refused with ⟨stamp, minted, raised⟩
  rw [Bool.not_eq_true'] at raised
  refine ⟨stamp, minted, ?_, ?_⟩
  · cases outcome : attribution sha256 (findingListing (.int 79)) stamp [none, some "r"] with
    | error failure => exact ⟨failure, rfl⟩
    | ok version => exact absurd outcome (ne_ok_of_isOk raised version)
  · intro accounted
    rcases accounted.returned with ⟨version, found⟩
    exact ne_ok_of_isOk raised _ found

end Samples

end LedgerProof
