import TraustLedger.Proofs.CanonicalTexts

namespace LedgerProof

open Hashing Python Runs Trimming LedgerModel

section Sorting

def textOrder (left right : String) : Prop := Dict.precedes (chars right) (chars left) = false

instance (left right : String) : Decidable (textOrder left right) :=
  inferInstanceAs (Decidable (_ = false))

instance : Std.Total textOrder := ⟨fun left right => Dict.not_precedes_total (chars left) (chars right)⟩

instance : IsTrans String textOrder := ⟨fun _ _ _ => Dict.not_precedes_trans⟩

theorem textOrder_antisymm {left right : String} (first : textOrder left right) (second : textOrder right left) :
    left = right := by
  by_contra apart
  rcases Dict.precedes_total (fun same => apart (chars_injective same)) with before | after
  · rw [second] at before
    cases before
  · rw [first] at after
    cases after

theorem sortedSet_eq (texts : List String) : sortedSet texts = texts.dedup.insertionSort textOrder := rfl

theorem mem_sortedSet {texts : List String} {text : String} : text ∈ sortedSet texts ↔ text ∈ texts := by
  rw [sortedSet_eq, List.mem_insertionSort, List.mem_dedup]

theorem pairwise_sortedSet (texts : List String) : (sortedSet texts).Pairwise textOrder :=
  List.pairwise_insertionSort textOrder _

theorem nodup_sortedSet (texts : List String) : (sortedSet texts).Nodup := by
  rw [sortedSet_eq, (List.perm_insertionSort textOrder _).nodup_iff]
  exact texts.nodup_dedup

theorem sorted_ext {left right : List String} (sortedLeft : left.Pairwise textOrder)
    (sortedRight : right.Pairwise textOrder) (distinctLeft : left.Nodup) (distinctRight : right.Nodup)
    (same : ∀ text, text ∈ left ↔ text ∈ right) : left = right := by
  have perm : left.Perm right := (List.perm_ext_iff_of_nodup distinctLeft distinctRight).mpr same
  exact List.Perm.eq_of_pairwise (fun _ _ _ _ => textOrder_antisymm) sortedLeft sortedRight perm

end Sorting

section Locations

theorem iteratedOr_arr (items : List Json) : iteratedOr (.arr items) [] = .ok items := by
  cases items with
  | nil => rfl
  | cons item items => rfl

theorem anchorPaths_ok_iff {locations : List Json} {paths : List String} :
    anchorPaths locations = .ok paths ↔
      (∀ location ∈ locations, ∃ anchor, locationAnchor location = .ok anchor) ∧
        paths.Pairwise textOrder ∧ paths.Nodup ∧
          ∀ path, path ∈ paths ↔ path ≠ "" ∧ ∃ location ∈ locations, locationAnchor location = .ok path := by
  have members : ∀ canons, locations.mapM locationAnchor = .ok canons → ∀ path,
      path ∈ sortedSet (canons.filter (· ≠ "")) ↔
        path ≠ "" ∧ ∃ location ∈ locations, locationAnchor location = .ok path := by
    intro canons mapped path
    rw [mem_sortedSet, List.mem_filter, and_comm, decide_eq_true_eq]
    refine and_congr_right fun _ => ⟨fun member => mem_of_mapM mapped member, ?_⟩
    intro found
    rcases found with ⟨location, member, anchored⟩
    rcases mapM_of_mem mapped member with ⟨anchor, held, same⟩
    rw [anchored, Except.ok.injEq] at same
    rwa [same]
  simp only [anchorPaths, bind_ok_iff, pure, Except.pure, Except.ok.injEq]
  constructor
  · intro read
    rcases read with ⟨canons, mapped, rfl⟩
    refine ⟨?_, pairwise_sortedSet _, nodup_sortedSet _, members canons mapped⟩
    intro location member
    rcases mapM_of_mem mapped member with ⟨anchor, _, anchored⟩
    exact ⟨anchor, anchored⟩
  · intro read
    rcases read with ⟨each, sorted, distinct, exactly⟩
    have mapped := mapM_ok (f := locationAnchor) (P := fun _ => True) (by simpa using each)
    rcases mapped with ⟨canons, mapped, _⟩
    refine ⟨canons, mapped, ?_⟩
    refine sorted_ext (pairwise_sortedSet _) sorted (nodup_sortedSet _) distinct fun path => ?_
    rw [members canons mapped, exactly]

end Locations

section Ranks

def rankValue (cwe : Json) : Nat × List Char :=
  (if firstDigits (cweText cwe) = [] then cweNoNumber else decimal (firstDigits (cweText cwe)), cweText cwe)

def ShortNumber (cwe : Json) : Prop := (firstDigits (cweText cwe)).length ≤ intMaxStrDigits

def blankCwe (cwe : Json) : Prop := stripChars (chars (pyStr cwe)) = []

theorem rank_ok_iff {cwe : Json} {value : Nat × List Char} :
    rank cwe = .ok value ↔ ShortNumber cwe ∧ value = rankValue cwe := by
  unfold rank rankValue ShortNumber
  by_cases none : firstDigits (cweText cwe) = []
  · simp [none, pure, Except.pure, eq_comm]
  · simp only [none, if_false, bind_ok_iff, require_ok_iff, pure, Except.pure, Except.ok.injEq]
    simp [eq_comm]

theorem cweText_eq_nil_iff {cwe : Json} : cweText cwe = [] ↔ blankCwe cwe := by
  rw [cweText_eq, blankCwe, asciiUpper, List.map_eq_nil_iff]

theorem shortNumber_of_blank {cwe : Json} (blank : blankCwe cwe) : ShortNumber cwe := by
  rw [ShortNumber, cweText_eq_nil_iff.mpr blank]
  exact Nat.zero_le _

theorem ranksBelow_iff {left right : Nat × List Char} : ranksBelow left right = true ↔
    left.1 < right.1 ∨ (left.1 = right.1 ∧ Dict.precedes left.2 right.2 = true) := by
  simp [ranksBelow]

theorem not_ranksBelow_iff {left right : Nat × List Char} : ranksBelow left right = false ↔
    right.1 < left.1 ∨ (left.1 = right.1 ∧ Dict.precedes left.2 right.2 = false) := by
  rcases Nat.lt_trichotomy left.1 right.1 with less | same | more
  · simp [ranksBelow, less, less.ne, less.le.not_gt]
  · simp [ranksBelow, same]
  · simp [ranksBelow, more, more.ne', more.le]

theorem not_ranksBelow_trans {low middle high : Nat × List Char} (first : ranksBelow middle low = false)
    (second : ranksBelow high middle = false) : ranksBelow high low = false := by
  rw [not_ranksBelow_iff] at first second ⊢
  rcases first with less | ⟨same, order⟩
  · left
    omega
  · rcases second with less | ⟨equal, later⟩
    · left
      omega
    · exact Or.inr ⟨equal.trans same, Dict.not_precedes_trans order later⟩

theorem not_ranksBelow_antisymm {left right : Nat × List Char} (first : ranksBelow left right = false)
    (second : ranksBelow right left = false) : left = right := by
  rw [not_ranksBelow_iff] at first second
  have number : left.1 = right.1 := by omega
  refine Prod.ext number ?_
  by_contra apart
  rcases Dict.precedes_total apart with before | after
  · rcases first with less | ⟨_, order⟩
    · omega
    · rw [order] at before
      cases before
  · rcases second with less | ⟨_, order⟩
    · omega
    · rw [order] at after
      cases after

theorem minByKey_spec (first : (Nat × List Char) × Json) (items : List ((Nat × List Char) × Json)) :
    minByKey first items ∈ first :: items ∧
      ∀ item ∈ first :: items, ranksBelow item.1 (minByKey first items).1 = false := by
  have refl : ∀ value : Nat × List Char, ranksBelow value value = false := by
    intro value
    rw [not_ranksBelow_iff]
    exact Or.inr ⟨rfl, Dict.precedes_irrefl _⟩
  induction items generalizing first with
  | nil =>
    refine ⟨List.mem_cons_self, ?_⟩
    intro item member
    rw [List.mem_singleton.mp member]
    exact refl _
  | cons second items ih =>
    rw [minByKey, List.foldl_cons, ← minByKey]
    -- the lower of the two goes on, and the other does not rank below it
    by_cases below : ranksBelow second.1 first.1 = true
    · rw [if_pos below]
      rcases ih second with ⟨member, lowest⟩
      refine ⟨List.mem_cons_of_mem _ member, List.forall_mem_cons.mpr ⟨?_, lowest⟩⟩
      refine not_ranksBelow_trans (lowest second List.mem_cons_self) ?_
      rw [ranksBelow_iff] at below
      rw [not_ranksBelow_iff]
      rcases below with less | ⟨same, order⟩
      · exact Or.inl less
      · refine Or.inr ⟨same.symm, ?_⟩
        cases after : Dict.precedes first.1.2 second.1.2 with
        | false => rfl
        | true => rw [← Dict.precedes_irrefl first.1.2, Dict.precedes_trans after order]
    · rw [if_neg below]
      rcases ih first with ⟨member, lowest⟩
      rcases List.forall_mem_cons.mp lowest with ⟨head, rest⟩
      refine ⟨?_, List.forall_mem_cons.mpr ⟨head, List.forall_mem_cons.mpr ⟨?_, rest⟩⟩⟩
      · rcases List.mem_cons.mp member with same | later
        · rw [same]
          exact List.mem_cons_self
        · exact List.mem_cons_of_mem _ (List.mem_cons_of_mem _ later)
      · exact not_ranksBelow_trans head (by simpa using below)

def IsLowest (listed : List Json) (text : List Char) : Prop :=
  ((∀ cwe ∈ listed, blankCwe cwe) ∧ text = chars "CWE-0") ∨
    ∃ cwe ∈ listed, ¬ blankCwe cwe ∧ text = cweText cwe ∧
      ∀ other ∈ listed, ¬ blankCwe other → ranksBelow (rankValue other) (rankValue cwe) = false

theorem IsLowest.unique {listed : List Json} {text other : List Char} (first : IsLowest listed text)
    (second : IsLowest listed other) : text = other := by
  rcases first with ⟨blank, rfl⟩ | ⟨cwe, member, nonblank, rfl, lowest⟩
  · rcases second with ⟨_, rfl⟩ | ⟨cwe, member, nonblank, _⟩
    · rfl
    · exact absurd (blank cwe member) nonblank
  · rcases second with ⟨blank, _⟩ | ⟨cwe', member', nonblank', rfl, lowest'⟩
    · exact absurd (blank cwe member) nonblank
    · have same := not_ranksBelow_antisymm (lowest' cwe member nonblank) (lowest cwe' member' nonblank')
      exact congrArg Prod.snd same

def rankedEntry (cwe : Json) : Outcome ((Nat × List Char) × Json) := do return (← rank cwe, cwe)

theorem rankedEntry_ok_iff {cwe : Json} {entry : (Nat × List Char) × Json} :
    rankedEntry cwe = .ok entry ↔ ShortNumber cwe ∧ entry = (rankValue cwe, cwe) := by
  simp only [rankedEntry, bind_ok_iff, rank_ok_iff, pure, Except.pure, Except.ok.injEq]
  constructor
  · intro read
    rcases read with ⟨value, ⟨short, rfl⟩, rfl⟩
    exact ⟨short, rfl⟩
  · intro read
    exact ⟨rankValue cwe, ⟨read.1, rfl⟩, read.2.symm⟩

theorem rankedEntries_ok_iff {cwes : List Json} {ranked : List ((Nat × List Char) × Json)} :
    cwes.mapM rankedEntry = .ok ranked ↔
      (∀ cwe ∈ cwes, ShortNumber cwe) ∧ ranked = cwes.map fun cwe => (rankValue cwe, cwe) := by
  induction cwes generalizing ranked with
  | nil => simp [pure, Except.pure, eq_comm]
  | cons cwe cwes ih =>
    simp only [List.mapM_cons, bind_ok_iff, rankedEntry_ok_iff, ih, pure, Except.pure, Except.ok.injEq,
      List.forall_mem_cons, List.map_cons]
    constructor
    · intro read
      rcases read with ⟨entry, ⟨short, rfl⟩, rest, ⟨others, rfl⟩, rfl⟩
      exact ⟨⟨short, others⟩, rfl⟩
    · intro read
      rcases read with ⟨⟨short, others⟩, rfl⟩
      exact ⟨_, ⟨short, rfl⟩, _, ⟨others, rfl⟩, rfl⟩

def nonblank (listed : List Json) : List Json := listed.filter fun cwe => stripChars (chars (pyStr cwe)) ≠ []

theorem mem_nonblank {listed : List Json} {cwe : Json} : cwe ∈ nonblank listed ↔ cwe ∈ listed ∧ ¬ blankCwe cwe := by
  rw [nonblank, List.mem_filter, decide_eq_true_eq]
  rfl

theorem lowestCwe_eq (listed : List Json) : lowestCwe listed = (do
    let ranked ← (nonblank listed).mapM rankedEntry
    match ranked with
    | [] => return chars "CWE-0"
    | first :: rest =>
      let text := cweText (minByKey first rest).2
      return if text = [] then chars "CWE-0" else text) := rfl

theorem shortNumber_of_lowestCwe {listed : List Json} {text : List Char} (found : lowestCwe listed = .ok text) :
    ∀ cwe ∈ listed, ShortNumber cwe := by
  rw [lowestCwe_eq, bind_ok_iff] at found
  rcases found with ⟨ranked, mapped, _⟩
  intro cwe member
  by_cases blank : blankCwe cwe
  · exact shortNumber_of_blank blank
  · exact (rankedEntries_ok_iff.mp mapped).1 cwe (mem_nonblank.mpr ⟨member, blank⟩)

theorem exists_lowestCwe {listed : List Json} (short : ∀ cwe ∈ listed, ShortNumber cwe) :
    ∃ text, lowestCwe listed = .ok text ∧ IsLowest listed text := by
  have mapped : (nonblank listed).mapM rankedEntry = .ok ((nonblank listed).map fun cwe => (rankValue cwe, cwe)) :=
    rankedEntries_ok_iff.mpr ⟨fun cwe member => short cwe (mem_nonblank.mp member).1, rfl⟩
  rw [lowestCwe_eq, mapped]
  cases held : nonblank listed with
  | nil =>
    refine ⟨chars "CWE-0", rfl, Or.inl ⟨?_, rfl⟩⟩
    intro cwe member
    by_contra filled
    have wrong := mem_nonblank.mpr ⟨member, filled⟩
    rw [held] at wrong
    cases wrong
  | cons first rest =>
    rcases minByKey_spec (rankValue first, first) (rest.map fun cwe => (rankValue cwe, cwe)) with ⟨member, lowest⟩
    rw [← List.map_cons (f := fun cwe => (rankValue cwe, cwe)), ← held] at member lowest
    rcases List.mem_map.mp member with ⟨cwe, within, same⟩
    rw [← same] at lowest
    rcases mem_nonblank.mp within with ⟨listedCwe, filled⟩
    refine ⟨cweText cwe, ?_, Or.inr ⟨cwe, listedCwe, filled, rfl, ?_⟩⟩
    · simp only [List.map_cons, bind, Except.bind, pure, Except.pure, ← same, if_neg (mt cweText_eq_nil_iff.mp filled)]
    · intro other listedOther filledOther
      exact lowest (rankValue other, other)
        (List.mem_map.mpr ⟨other, mem_nonblank.mpr ⟨listedOther, filledOther⟩, rfl⟩)

theorem lowestCwe_ok_iff {listed : List Json} {text : List Char} :
    lowestCwe listed = .ok text ↔ (∀ cwe ∈ listed, ShortNumber cwe) ∧ IsLowest listed text := by
  constructor
  · intro found
    have short := shortNumber_of_lowestCwe found
    rcases exists_lowestCwe short with ⟨other, same, lowest⟩
    rw [found, Except.ok.injEq] at same
    exact ⟨short, same ▸ lowest⟩
  · intro given
    rcases exists_lowestCwe given.1 with ⟨other, found, lowest⟩
    rw [found, lowest.unique given.2]

end Ranks

section Parts

/-- What a fingerprint is taken of. -/
structure IdentityParts where
  repo : String
  anchors : List String
  cwe : List Char
  check : List Char
  deriving DecidableEq

def identityParts (finding : Dict) (repoUrl : Option String) : Outcome IdentityParts := do
  let locations ← iteratedOr (finding.get "locations") []
  let paths ← anchorPaths locations
  let cwe ← primaryCwe finding
  return ⟨canonRepo repoUrl, paths, cwe, policyCheck finding⟩

def IdentityParts.text (parts : IdentityParts) : List Char :=
  ['|'].intercalate (identityComponents parts.repo parts.anchors parts.cwe parts.check)

def IdentityParts.payload (parts : IdentityParts) : Bytes := utf8 parts.text

theorem identityParts_ok_iff {finding : Dict} {repoUrl : Option String} {parts : IdentityParts} :
    identityParts finding repoUrl = .ok parts ↔
      (∃ locations, iteratedOr (finding.get "locations") [] = .ok locations ∧
        anchorPaths locations = .ok parts.anchors) ∧
      primaryCwe finding = .ok parts.cwe ∧ parts.repo = canonRepo repoUrl ∧ parts.check = policyCheck finding := by
  simp only [identityParts, bind_ok_iff, pure, Except.pure, Except.ok.injEq]
  constructor
  · intro read
    rcases read with ⟨locations, listed, paths, anchored, cwe, primary, rfl⟩
    exact ⟨⟨locations, listed, anchored⟩, primary, rfl, rfl⟩
  · intro read
    rcases read with ⟨⟨locations, listed, anchored⟩, primary, repo, check⟩
    exact ⟨locations, listed, parts.anchors, anchored, parts.cwe, primary, by rw [← repo, ← check]⟩

theorem fingerprint_ok_iff {H : HashFunction} {finding : Dict} {repoUrl : Option String} {strict : Bool}
    {value : String} : fingerprint H finding repoUrl strict = .ok value ↔
      ∃ parts, identityParts finding repoUrl = .ok parts ∧ (strict = false ∨ parts.anchors ≠ []) ∧
        hexDigest H parts.payload = value := by
  simp only [fingerprint, identityParts, bind_ok_iff, require_ok_iff, pure, Except.pure, Except.ok.injEq]
  constructor
  · intro read
    rcases read with ⟨locations, listed, paths, anchored, _, allowed, cwe, primary, rfl⟩
    exact ⟨_, ⟨locations, listed, paths, anchored, cwe, primary, rfl⟩, allowed, rfl⟩
  · intro read
    rcases read with ⟨parts, ⟨locations, listed, paths, anchored, cwe, primary, rfl⟩, allowed, rfl⟩
    exact ⟨locations, listed, paths, anchored, (), allowed, cwe, primary, rfl⟩

end Parts

end LedgerProof
