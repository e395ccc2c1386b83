import TraustLedger.Library.Delimiters
import TraustLedger.Library.Sha256
import TraustLedger.Proofs.FingerprintParts
import TraustLedger.Proofs.SignatureBinding

namespace LedgerProof

open Hashing Python Runs Trimming Sha256 Delimiters LedgerModel

def CanonicalRepo (text : List Char) : Prop := ∃ url, canonRepoText url = text

def CanonicalPath (text : List Char) : Prop := text ≠ [] ∧ ∃ raw, canonPathText raw = text

def CanonicalCheck (text : List Char) : Prop := text ≠ [] ∧ asciiUpper (stripChars text) = text

def CanonicalCwe (text : List Char) : Prop := CanonicalCheck text ∧ (firstDigits text).length ≤ intMaxStrDigits

namespace IdentityParts

def joined (parts : IdentityParts) : List Char := [';'].intercalate (parts.anchors.map chars)

def tail (parts : IdentityParts) : List Char :=
  if parts.check ≠ [] then parts.cwe ++ '|' :: parts.check else parts.cwe

/-- Parts that a finding can have. -/
structure Canonical (parts : IdentityParts) : Prop where
  repo : CanonicalRepo (chars parts.repo)
  anchors : ∀ anchor ∈ parts.anchors, CanonicalPath (chars anchor)
  sorted : parts.anchors.Pairwise textOrder
  distinct : parts.anchors.Nodup
  cwe : CanonicalCwe parts.cwe
  check : parts.check ≠ [] → CanonicalCheck parts.check

def Bound (H : HashFunction) (left right : IdentityParts) : Prop :=
  left = right ∨ ∃ pair, findCollision H [left.payload, right.payload] = some pair ∧ IsCollision H pair

def TailText (text : List Char) : Prop :=
  CanonicalCwe text ∨ ∃ cwe check, CanonicalCwe cwe ∧ CanonicalCheck check ∧ text = cwe ++ '|' :: check

/-- The hashed text can be cut at its separators in one way only. -/
structure Unmistaken (parts : IdentityParts) : Prop where
  /-- No `;` cuts the anchors into two anchors in their order: there is at most one, and it is not two in one text. -/
  path : ∀ first second, CanonicalPath first → CanonicalPath second → Dict.precedes first second = true →
    parts.joined ≠ first ++ ';' :: second
  /-- A check id is not the end of a CWE. -/
  check : parts.check ≠ [] → ¬ CanonicalCwe (parts.cwe ++ '|' :: parts.check)
  /-- The end of the CWE is not a check id. -/
  cwe : ∀ cwe check, CanonicalCwe cwe → CanonicalCheck check → parts.tail = cwe ++ '|' :: check → cwe = parts.cwe
  /-- No other two `|` cut the text into a repository, an anchor or nothing, and a CWE. -/
  bars : ∀ repo path rest, CanonicalRepo repo → path = [] ∨ CanonicalPath path → TailText rest →
    parts.text = repo ++ '|' :: (path ++ '|' :: rest) → repo = chars parts.repo ∧ path = parts.joined

def Plain (parts : IdentityParts) : Prop :=
  Free '|' (identityComponents parts.repo parts.anchors parts.cwe parts.check) ∧ Free ';' (parts.anchors.map chars)

theorem text_eq (parts : IdentityParts) :
    parts.text = chars parts.repo ++ '|' :: (parts.joined ++ '|' :: parts.tail) := by
  unfold text identityComponents tail joined
  by_cases check : parts.check = []
  · simp [check, List.intercalate_cons_cons]
  · simp [check, List.intercalate_cons_cons]

end IdentityParts

section Canonical

theorem canonicalPath_iff {text : List Char} : CanonicalPath text ↔ PathText text := by
  constructor
  · intro canonical
    rcases canonical with ⟨filled, raw, rfl⟩
    exact pathText_canonPathText filled
  · intro path
    exact ⟨path.filled, _, canonPathText_dotted path⟩

theorem CanonicalPath.join {text more : List Char} (first : CanonicalPath text) (second : CanonicalPath more) :
    CanonicalPath (text ++ ';' :: more) := by
  rw [canonicalPath_iff] at first second ⊢
  exact first.join second

theorem canonicalPath_intercalate {first : List Char} {rest : List (List Char)}
    (each : ∀ text ∈ first :: rest, CanonicalPath text) : CanonicalPath ([';'].intercalate (first :: rest)) := by
  induction rest generalizing first with
  | nil =>
    rw [List.intercalate_singleton]
    exact each first List.mem_cons_self
  | cons second rest ih =>
    rw [List.intercalate_cons_cons, List.append_assoc]
    rcases List.forall_mem_cons.mp each with ⟨head, others⟩
    exact head.join (ih others)

theorem canonPath_ok {value : Json} {path : String} (canon : canonPath value = .ok path) (filled : path ≠ "") :
    CanonicalPath (chars path) := by
  unfold canonPath at canon
  split at canon
  · cases canon
    rw [chars_ofList]
    refine ⟨?_, _, rfl⟩
    intro empty
    rw [empty] at filled
    exact filled rfl
  · simp only [bind_ok_iff, pure, Except.pure, Except.ok.injEq] at canon
    rcases canon with ⟨_, _, rfl⟩
    exact absurd rfl filled

theorem locationAnchor_ok {location : Json} {anchor : String} (anchored : locationAnchor location = .ok anchor)
    (filled : anchor ≠ "") : CanonicalPath (chars anchor) := by
  unfold locationAnchor at anchored
  split at anchored
  · simp only [bind_ok_iff] at anchored
    rcases anchored with ⟨path, canon, anchored⟩
    split at anchored
    · next held =>
      cases anchored
      exact canonPath_ok canon held
    · exact canonPath_ok anchored filled
  · cases anchored

theorem canonicalCheck_upper {raw : List Char} (filled : stripChars raw ≠ []) :
    CanonicalCheck (asciiUpper (stripChars raw)) := by
  refine ⟨by simpa [asciiUpper] using filled, ?_⟩
  rw [stripChars_asciiUpper, stripChars_stripChars, asciiUpper_asciiUpper]

theorem canonicalCwe_of_isLowest {listed : List Json} {text : List Char} (lowest : IsLowest listed text)
    (short : ∀ cwe ∈ listed, ShortNumber cwe) : CanonicalCwe text := by
  rcases lowest with ⟨_, rfl⟩ | ⟨cwe, member, filled, rfl, _⟩
  · exact ⟨⟨by decide +kernel, by decide +kernel⟩, by decide +kernel⟩
  · refine ⟨?_, short cwe member⟩
    rw [cweText_eq]
    exact canonicalCheck_upper filled

theorem identityParts_canonical {finding : Dict} {repoUrl : Option String} {parts : IdentityParts}
    (known : identityParts finding repoUrl = .ok parts) : parts.Canonical := by
  rcases identityParts_ok_iff.mp known with ⟨⟨locations, _, anchored⟩, primary, repo, check⟩
  rcases anchorPaths_ok_iff.mp anchored with ⟨_, sorted, distinct, exactly⟩
  refine ⟨?_, ?_, sorted, distinct, ?_, ?_⟩
  · rw [repo, canonRepo, chars_ofList]
    exact ⟨_, rfl⟩
  · intro anchor member
    rcases (exactly anchor).mp member with ⟨filled, location, _, found⟩
    exact locationAnchor_ok found filled
  · rw [primaryCwe, bind_ok_iff] at primary
    rcases primary with ⟨listed, _, lowest⟩
    rw [lowestCwe_ok_iff] at lowest
    exact canonicalCwe_of_isLowest lowest.2 lowest.1
  · rw [check]
    intro filled
    unfold policyCheck at filled ⊢
    split at filled
    · next value _ => exact canonicalCheck_upper fun empty => filled (by rw [empty]; rfl)
    · exact absurd rfl filled

end Canonical

section Realised

def locationAt (anchor : String) : Json := .obj [("path", .str (String.ofList (['.', '/'] ++ chars anchor ++ ['/'])))]

def findingWith (parts : IdentityParts) : Dict :=
  [("check_id", .str (String.ofList parts.check)), ("cwes", .arr [.str (String.ofList parts.cwe)]),
    ("locations", .arr (parts.anchors.map locationAt))]

theorem locationAnchor_locationAt {anchor : String} (canonical : CanonicalPath (chars anchor)) :
    locationAnchor (locationAt anchor) = .ok anchor := by
  have path := canonPathText_dotted (canonicalPath_iff.mp canonical)
  have filled : anchor ≠ "" := fun empty => canonical.1 (by rw [empty]; rfl)
  have text : String.ofList (canonPathText (['.', '/'] ++ chars anchor ++ ['/'])) = anchor :=
    chars_injective (by rw [path, chars_ofList])
  have read : Dict.get [("path", .str (String.ofList (['.', '/'] ++ chars anchor ++ ['/'])))] "path" =
      .str (String.ofList (['.', '/'] ++ chars anchor ++ ['/'])) := by
    rw [Dict.get_cons, if_pos rfl]
  simp only [locationAnchor, locationAt, read, canonPath, chars_ofList, text, pure, Except.pure, bind, Except.bind, filled,
    ne_eq, not_false_eq_true, if_true]

theorem cweText_of_canonical {text : List Char} (canonical : CanonicalCheck text) :
    cweText (.str (String.ofList text)) = text := by
  rw [cweText_eq, pyStr, chars_ofList, canonical.2]

theorem lowestCwe_single {text : List Char} (canonical : CanonicalCwe text) :
    lowestCwe [.str (String.ofList text)] = .ok text := by
  have same := cweText_of_canonical canonical.1
  rw [lowestCwe_ok_iff]
  refine ⟨?_, Or.inr ⟨_, List.mem_cons_self, ?_, same.symm, ?_⟩⟩
  · intro cwe member
    rw [List.mem_singleton.mp member, ShortNumber, same]
    exact canonical.2
  · rw [← cweText_eq_nil_iff, same]
    exact canonical.1.1
  · intro other member _
    rw [List.mem_singleton.mp member, not_ranksBelow_iff]
    exact Or.inr ⟨rfl, Dict.precedes_irrefl _⟩

theorem identityParts_findingWith {parts : IdentityParts} (canonical : parts.Canonical) :
    ∃ repoUrl, identityParts (findingWith parts) repoUrl = .ok parts := by
  rcases canonical.repo with ⟨url, repo⟩
  refine ⟨some (String.ofList url), identityParts_ok_iff.mpr ⟨⟨_, iteratedOr_arr _, ?_⟩, ?_, ?_, ?_⟩⟩
  · rw [anchorPaths_ok_iff]
    have anchored : ∀ location ∈ parts.anchors.map locationAt, ∃ anchor ∈ parts.anchors,
        location = locationAt anchor ∧ locationAnchor location = .ok anchor := by
      intro location member
      rcases List.mem_map.mp member with ⟨anchor, held, rfl⟩
      exact ⟨anchor, held, rfl, locationAnchor_locationAt (canonical.anchors anchor held)⟩
    refine ⟨?_, canonical.sorted, canonical.distinct, ?_⟩
    · intro location member
      rcases anchored location member with ⟨anchor, _, _, found⟩
      exact ⟨anchor, found⟩
    · intro path
      constructor
      · intro held
        refine ⟨fun empty => (canonical.anchors path held).1 (by rw [empty]; rfl), locationAt path, ?_, ?_⟩
        · exact List.mem_map_of_mem held
        · exact locationAnchor_locationAt (canonical.anchors path held)
      · intro found
        rcases found with ⟨_, location, member, read⟩
        rcases anchored location member with ⟨anchor, held, _, same⟩
        rw [read, Except.ok.injEq] at same
        rwa [same]
  · exact lowestCwe_single canonical.cwe
  · rw [canonRepo, Option.getD_some, chars_ofList, repo]
    exact chars_injective (by rw [chars_ofList])
  · have read : policyCheck (findingWith parts) = asciiUpper (stripChars parts.check) := by
      rw [← chars_ofList parts.check]
      rfl
    rw [read]
    by_cases empty : parts.check = []
    · rw [empty]
      rfl
    · exact (canonical.check empty).2.symm

end Realised

namespace IdentityParts

variable {parts other : IdentityParts}

/-- The parts are the only ones that are joined to their text. -/
def OnlyReading (parts : IdentityParts) : Prop := ∀ other, other.Canonical → other.text = parts.text → other = parts

theorem joined_canonical (canonical : parts.Canonical) (anchored : parts.anchors ≠ []) :
    CanonicalPath parts.joined := by
  unfold joined
  cases held : parts.anchors with
  | nil => exact absurd held anchored
  | cons first rest =>
    refine canonicalPath_intercalate ?_
    rw [← List.map_cons, ← held, List.forall_mem_map]
    exact canonical.anchors

theorem joined_eq_nil_or_canonical (canonical : parts.Canonical) :
    parts.joined = [] ∨ CanonicalPath parts.joined := by
  by_cases none : parts.anchors = []
  · exact Or.inl (by rw [joined, none]; rfl)
  · exact Or.inr (joined_canonical canonical none)

theorem tailText_tail (canonical : parts.Canonical) : TailText parts.tail := by
  unfold tail
  split
  · next filled => exact Or.inr ⟨_, _, canonical.cwe, canonical.check filled, rfl⟩
  · exact Or.inl canonical.cwe

theorem joined_cut (canonical : parts.Canonical) {first second : String} {rest : List String}
    (several : parts.anchors = first :: second :: rest) :
    ∃ later, CanonicalPath (chars first) ∧ CanonicalPath later ∧ Dict.precedes (chars first) later = true ∧
      parts.joined = chars first ++ ';' :: later := by
  have anchors := canonical.anchors
  have sorted := canonical.sorted
  have distinct := canonical.distinct
  rw [several] at anchors sorted distinct
  rcases List.forall_mem_cons.mp anchors with ⟨head, others⟩
  refine ⟨[';'].intercalate ((second :: rest).map chars), head, ?_, ?_, ?_⟩
  · rw [List.map_cons]
    refine canonicalPath_intercalate ?_
    rw [← List.map_cons, List.forall_mem_map]
    exact others
  · have order : textOrder first second := (List.pairwise_cons.mp sorted).1 second List.mem_cons_self
    have apart : first ≠ second := fun same => (List.nodup_cons.mp distinct).1 (same ▸ List.mem_cons_self)
    have before : Dict.precedes (chars first) (chars second) = true := by
      rcases Dict.precedes_total (fun same => apart (chars_injective same)) with before | after
      · exact before
      · rw [order] at after
        cases after
    cases rest with
    | nil => simpa using before
    | cons third rest =>
      rw [List.map_cons, List.map_cons, List.intercalate_cons_cons, List.append_assoc]
      exact Dict.precedes_append _ before
  · simp [joined, several, List.intercalate_cons_cons]

theorem joined_single {anchor : String} (single : parts.anchors = [anchor]) : parts.joined = chars anchor := by
  simp [joined, single]

theorem anchors_of_joined (canonical : parts.Canonical) (others : other.Canonical)
    (path : ∀ first second, CanonicalPath first → CanonicalPath second → Dict.precedes first second = true →
      parts.joined ≠ first ++ ';' :: second) (same : other.joined = parts.joined) : other.anchors = parts.anchors := by
  have few : ∀ one : IdentityParts, one.Canonical → one.joined = parts.joined →
      (one.anchors = [] ∧ parts.joined = []) ∨ ∃ anchor, one.anchors = [anchor] ∧ parts.joined = chars anchor := by
    intro one canonicalOne sameOne
    match held : one.anchors with
    | [] => exact Or.inl ⟨rfl, by rw [← sameOne, joined, held]; rfl⟩
    | [anchor] => exact Or.inr ⟨anchor, rfl, by rw [← sameOne, joined_single held]⟩
    | first :: second :: rest =>
      rcases joined_cut canonicalOne held with ⟨later, canonicalFirst, canonicalLater, before, cut⟩
      rw [sameOne] at cut
      exact absurd cut (path _ _ canonicalFirst canonicalLater before)
  rcases few parts canonical rfl with ⟨none, empty⟩ | ⟨anchor, single, text⟩
  · rcases few other others same with ⟨noneOther, _⟩ | ⟨anchor, single, text⟩
    · rw [none, noneOther]
    · have filled := (others.anchors anchor (by rw [single]; exact List.mem_cons_self)).1
      rw [← text, empty] at filled
      exact absurd rfl filled
  · rcases few other others same with ⟨_, empty⟩ | ⟨anchorOther, singleOther, textOther⟩
    · have filled := (canonical.anchors anchor (by rw [single]; exact List.mem_cons_self)).1
      rw [← text, empty] at filled
      exact absurd rfl filled
    · rw [single, singleOther, chars_injective (textOther.symm.trans text)]

theorem tail_cases (canonical : parts.Canonical) : (parts.check = [] ∧ parts.tail = parts.cwe) ∨
    (parts.check ≠ [] ∧ CanonicalCheck parts.check ∧ parts.tail = parts.cwe ++ '|' :: parts.check) := by
  by_cases empty : parts.check = []
  · exact Or.inl ⟨empty, if_neg (by simp [empty])⟩
  · exact Or.inr ⟨empty, canonical.check empty, if_pos empty⟩

theorem tail_inj (unmistaken : parts.Unmistaken) (canonical : parts.Canonical) (others : other.Canonical)
    (same : other.tail = parts.tail) : other.cwe = parts.cwe ∧ other.check = parts.check := by
  rcases tail_cases others with ⟨noneOther, tailOther⟩ | ⟨_, checkOther, tailOther⟩
  · rcases tail_cases canonical with ⟨none, tail⟩ | ⟨some, _, tail⟩
    · exact ⟨by rw [← tailOther, same, tail], by rw [none, noneOther]⟩
    · refine absurd ?_ (unmistaken.check some)
      rw [← tail, ← same, tailOther]
      exact others.cwe
  · have cwe := unmistaken.cwe _ _ others.cwe checkOther (same.symm.trans tailOther)
    rcases tail_cases canonical with ⟨_, tail⟩ | ⟨_, _, tail⟩
    · have cut := same.symm.trans tailOther
      rw [tail, cwe] at cut
      simp at cut
    · have cut := same.symm.trans tailOther
      rw [tail, cwe, List.append_cancel_left_eq, List.cons.injEq] at cut
      exact ⟨cwe, cut.2.symm⟩

theorem Unmistaken.onlyReading (unmistaken : parts.Unmistaken) (canonical : parts.Canonical) : parts.OnlyReading := by
  intro other others same
  have cut := text_eq other
  rw [same] at cut
  rcases unmistaken.bars _ _ _ others.repo (joined_eq_nil_or_canonical others) (tailText_tail others) cut with
    ⟨repo, joined⟩
  have tails : other.tail = parts.tail := by
    rw [text_eq, repo, joined, List.append_cancel_left_eq, List.cons.injEq, List.append_cancel_left_eq,
      List.cons.injEq] at cut
    exact cut.2.2.symm
  rcases tail_inj unmistaken canonical others tails with ⟨cwe, check⟩
  have anchors := anchors_of_joined canonical others unmistaken.path joined
  rcases other with ⟨repoOther, anchorsOther, cweOther, checkOther⟩
  simp only at repo anchors cwe check
  rw [chars_injective repo, anchors, cwe, check]

end IdentityParts

namespace IdentityParts

variable {parts : IdentityParts}

theorem canonical_anchors (canonical : parts.Canonical) {anchors : List String}
    (each : ∀ anchor ∈ anchors, CanonicalPath (chars anchor)) (sorted : anchors.Pairwise textOrder)
    (distinct : anchors.Nodup) : Canonical { parts with anchors := anchors } :=
  ⟨canonical.repo, each, sorted, distinct, canonical.cwe, canonical.check⟩

theorem text_congr {other : IdentityParts} (repo : other.repo = parts.repo) (joined : other.joined = parts.joined)
    (tail : other.tail = parts.tail) : other.text = parts.text := by
  rw [text_eq, text_eq, repo, joined, tail]

theorem OnlyReading.path (only : parts.OnlyReading) (canonical : parts.Canonical) {first second : List Char}
    (canonicalFirst : CanonicalPath first) (canonicalSecond : CanonicalPath second)
    (before : Dict.precedes first second = true) : parts.joined ≠ first ++ ';' :: second := by
  intro cut
  have one : Canonical { parts with anchors := [String.ofList (first ++ ';' :: second)] } := by
    refine canonical_anchors canonical ?_ (List.pairwise_singleton _ _) (List.nodup_singleton _)
    intro anchor member
    rw [List.mem_singleton.mp member, chars_ofList]
    exact canonicalFirst.join canonicalSecond
  have order : textOrder (String.ofList first) (String.ofList second) := by
    rw [textOrder, chars_ofList, chars_ofList]
    cases after : Dict.precedes second first with
    | false => rfl
    | true => rw [← Dict.precedes_irrefl first, Dict.precedes_trans before after]
  have apart : String.ofList first ≠ String.ofList second := by
    intro same
    have texts := congrArg chars same
    rw [chars_ofList, chars_ofList] at texts
    rw [texts, Dict.precedes_irrefl] at before
    cases before
  have two : Canonical { parts with anchors := [String.ofList first, String.ofList second] } := by
    refine canonical_anchors canonical ?_ (by simpa using order) (by simpa using apart)
    intro anchor member
    rcases List.mem_pair.mp member with rfl | rfl
    · rwa [chars_ofList]
    · rwa [chars_ofList]
  have readOne := only _ one (text_congr rfl (by rw [cut, joined_single rfl, chars_ofList]) rfl)
  have readTwo := only _ two (text_congr rfl (by rw [cut]; simp [joined, List.intercalate_cons_cons]) rfl)
  have lengths := congrArg (fun one : IdentityParts => one.anchors.length) (readOne.trans readTwo.symm)
  simp at lengths

theorem OnlyReading.ending (only : parts.OnlyReading) (canonical : parts.Canonical) {cwe check : List Char}
    (canonicalCwe : CanonicalCwe cwe) (canonicalCheck : check ≠ [] → CanonicalCheck check)
    (same : IdentityParts.tail { parts with cwe := cwe, check := check } = parts.tail) :
    cwe = parts.cwe ∧ check = parts.check := by
  have read := only { parts with cwe := cwe, check := check }
    ⟨canonical.repo, canonical.anchors, canonical.sorted, canonical.distinct, canonicalCwe, canonicalCheck⟩
    (text_congr rfl rfl same)
  exact ⟨congrArg IdentityParts.cwe read, congrArg IdentityParts.check read⟩

theorem tailText_parts {text : List Char} (ends : TailText text) : ∃ cwe check, CanonicalCwe cwe ∧
    (check ≠ [] → CanonicalCheck check) ∧
      ∀ repo anchors, IdentityParts.tail ⟨repo, anchors, cwe, check⟩ = text := by
  rcases ends with alone | ⟨cwe, check, canonicalCwe, canonicalCheck, rfl⟩
  · exact ⟨text, [], alone, fun filled => absurd rfl filled, fun _ _ => rfl⟩
  · exact ⟨cwe, check, canonicalCwe, fun _ => canonicalCheck, fun _ _ => if_pos canonicalCheck.1⟩

theorem OnlyReading.bars (only : parts.OnlyReading) {repo path rest : List Char}
    (canonicalRepo : CanonicalRepo repo) (canonicalPath : path = [] ∨ CanonicalPath path) (ends : TailText rest)
    (cut : parts.text = repo ++ '|' :: (path ++ '|' :: rest)) : repo = chars parts.repo ∧ path = parts.joined := by
  rcases tailText_parts ends with ⟨cwe, check, canonicalCwe, canonicalCheck, tails⟩
  rcases canonicalPath with rfl | canonicalPath
  · have read := only ⟨String.ofList repo, [], cwe, check⟩
      ⟨by rwa [chars_ofList], by simp, List.Pairwise.nil, List.nodup_nil, canonicalCwe, canonicalCheck⟩
      (by rw [cut, text_eq, tails, chars_ofList]; rfl)
    rw [← read]
    exact ⟨by rw [chars_ofList], rfl⟩
  · have read := only ⟨String.ofList repo, [String.ofList path], cwe, check⟩
      ⟨by rwa [chars_ofList], by simpa using canonicalPath, List.pairwise_singleton _ _, List.nodup_singleton _,
        canonicalCwe, canonicalCheck⟩
      (by rw [cut, text_eq, tails, joined_single rfl, chars_ofList, chars_ofList])
    rw [← read, joined_single rfl]
    exact ⟨by rw [chars_ofList], by rw [chars_ofList]⟩

theorem OnlyReading.unmistaken (only : parts.OnlyReading) (canonical : parts.Canonical) : parts.Unmistaken := by
  refine ⟨fun _ _ first second => only.path canonical first second, ?_, ?_, fun _ _ _ => only.bars⟩
  · intro filled joinedCwe
    have unchecked : ([] : List Char) ≠ [] → CanonicalCheck [] := fun wrong => absurd rfl wrong
    have read := only.ending canonical joinedCwe unchecked (by rw [tail, tail, if_neg (by simp), if_pos filled])
    exact filled read.2.symm
  · intro cwe check canonicalCwe canonicalCheck cut
    have read := only.ending canonical canonicalCwe (fun _ => canonicalCheck)
      (by rw [cut, tail, if_pos canonicalCheck.1])
    exact read.1

theorem joined_injective {other : IdentityParts} (plain : Free ';' (parts.anchors.map chars))
    (others : Free ';' (other.anchors.map chars)) (canonical : parts.Canonical) (canonicalOther : other.Canonical)
    (same : parts.joined = other.joined) : parts.anchors = other.anchors := by
  have empty : ∀ {one : IdentityParts}, one.Canonical → one.joined = [] → one.anchors = [] := by
    intro one canonicalOne none
    by_contra anchored
    exact (joined_canonical canonicalOne anchored).1 none
  by_cases none : parts.joined = []
  · rw [empty canonical none, empty canonicalOther (same ▸ none)]
  · have some_left : parts.anchors.map chars ≠ [] := by
      intro wrong
      rw [joined, wrong] at none
      exact none rfl
    have some_right : other.anchors.map chars ≠ [] := by
      intro wrong
      rw [same, joined, wrong] at none
      exact none rfl
    have texts := intercalate_injective plain others some_left some_right same
    exact List.map_injective_iff.mpr (fun _ _ => chars_injective) texts

theorem plain_injective {other : IdentityParts} (plain : parts.Plain) (others : other.Plain)
    (canonical : parts.Canonical) (canonicalOther : other.Canonical) (same : parts.text = other.text) :
    parts = other := by
  have filled : ∀ one : IdentityParts, identityComponents one.repo one.anchors one.cwe one.check ≠ [] := by
    intro one
    unfold identityComponents
    split <;> simp
  have components := intercalate_injective plain.1 others.1 (filled parts) (filled other) same
  have fields : chars parts.repo = chars other.repo ∧ parts.joined = other.joined ∧ parts.cwe = other.cwe ∧
      parts.check = other.check := by
    unfold identityComponents at components
    by_cases check : parts.check = []
    · by_cases checkOther : other.check = []
      · simpa [check, checkOther, joined] using components
      · simp [check, checkOther] at components
    · by_cases checkOther : other.check = []
      · simp [check, checkOther] at components
      · simpa [check, checkOther, joined] using components
  rcases fields with ⟨repo, joined, cwe, check⟩
  have anchors := joined_injective plain.2 others.2 canonical canonicalOther joined
  rcases other with ⟨repoOther, anchorsOther, cweOther, checkOther⟩
  simp only at repo anchors cwe check
  rw [← chars_injective repo, ← anchors, ← cwe, ← check]

theorem bound_of_text {H : HashFunction} {other : IdentityParts}
    (same : hexDigest H parts.payload = hexDigest H other.payload) (read : parts.text = other.text → parts = other) :
    Bound H parts other := by
  refine holds_or_findCollision fun distinct => ?_
  have payloads : parts.payload = other.payload := hexDigest_binding distinct (by simp) (by simp) same
  exact read (utf8_injective payloads)

theorem unmistaken_of_plain (plain : parts.Plain) (single : ';' ∉ parts.joined)
    (unchecked : parts.check = []) : parts.Unmistaken := by
  have components : identityComponents parts.repo parts.anchors parts.cwe parts.check =
      [chars parts.repo, parts.joined, parts.cwe] := by
    rw [identityComponents, if_neg (by simp [unchecked])]
    rfl
  have free := plain.1
  rw [components] at free
  have tail : parts.tail = parts.cwe := if_neg (by simp [unchecked])
  refine ⟨?_, fun filled => absurd unchecked filled, ?_, ?_⟩
  · intro first second _ _ _ cut
    rw [cut] at single
    exact single (by simp)
  · intro cwe check _ _ cut
    have held : '|' ∈ parts.cwe := by
      rw [← tail, cut]
      simp
    exact absurd held (free _ (by simp))
  · intro repo path rest _ _ _ cut
    have same : ['|'].intercalate [chars parts.repo, parts.joined, parts.cwe] =
        ['|'].intercalate [repo, path, rest] := by
      rw [text_eq, tail] at cut
      simpa [List.intercalate_cons_cons] using cut
    have fields : [chars parts.repo, parts.joined, parts.cwe] = [repo, path, rest] := intercalate_inj free rfl same
    simp only [List.cons.injEq, and_true] at fields
    exact ⟨fields.1.symm, fields.2.1.symm⟩

end IdentityParts

/-- A fingerprint separates a finding from all others exactly where the hashed text is cut at its separators in one
    way only; and it separates any two findings without separators in their components. -/
theorem fingerprints_separate_iff {H : HashFunction} {finding : Dict} {repoUrl : Option String} {strict : Bool}
    {value : String} {parts : IdentityParts} (computed : fingerprint H finding repoUrl strict = .ok value)
    (known : identityParts finding repoUrl = .ok parts) :
    ((∀ other otherUrl otherStrict otherParts, fingerprint H other otherUrl otherStrict = .ok value →
      identityParts other otherUrl = .ok otherParts → parts.Bound H otherParts) ↔ parts.Unmistaken) ∧
    (parts.Plain → ∀ other otherUrl otherStrict otherParts, fingerprint H other otherUrl otherStrict = .ok value →
      identityParts other otherUrl = .ok otherParts → otherParts.Plain → parts.Bound H otherParts) := by
  have canonical := identityParts_canonical known
  have valued : ∀ {other : Dict} {otherUrl : Option String} {otherStrict : Bool} {otherParts : IdentityParts}
      {otherValue : String}, fingerprint H other otherUrl otherStrict = .ok otherValue →
        identityParts other otherUrl = .ok otherParts → hexDigest H otherParts.payload = otherValue := by
    intro other otherUrl otherStrict otherParts otherValue found read
    rcases fingerprint_ok_iff.mp found with ⟨others, readOthers, _, digest⟩
    rw [read, Except.ok.injEq] at readOthers
    rwa [readOthers]
  have digest := valued computed known
  refine ⟨⟨fun separated => ?_, fun unmistaken => ?_⟩, fun plain => ?_⟩
  · refine IdentityParts.OnlyReading.unmistaken ?_ canonical
    intro other others same
    rcases identityParts_findingWith others with ⟨otherUrl, readOther⟩
    have payload : parts.payload = other.payload := by
      rw [IdentityParts.payload, IdentityParts.payload, same]
    have found : fingerprint H (findingWith other) otherUrl false = .ok value :=
      fingerprint_ok_iff.mpr ⟨other, readOther, Or.inl rfl, by rw [← payload, digest]⟩
    rcases separated _ _ _ _ found readOther with equal | ⟨pair, collision, _⟩
    · exact equal.symm
    · rw [findCollision_self payload] at collision
      cases collision
  · intro other otherUrl otherStrict otherParts found readOther
    refine IdentityParts.bound_of_text (digest.trans (valued found readOther).symm) ?_
    intro same
    exact (unmistaken.onlyReading canonical otherParts (identityParts_canonical readOther) same.symm).symm
  · intro other otherUrl otherStrict otherParts found readOther others
    refine IdentityParts.bound_of_text (digest.trans (valued found readOther).symm) ?_
    exact IdentityParts.plain_injective plain others canonical (identityParts_canonical readOther)

def auditFinding (paths : List String) (cwe : String) : Dict :=
  Dict.ofList [("locations", .arr (paths.map fun path => .obj [("path", .str path)])), ("cwes", .arr [.str cwe])]

theorem fingerprints_separate_iff_plain : ∃ value parts,
    fingerprint sha256 (auditFinding ["src/a.go"] "CWE-79") (some "https://host/repo") true = .ok value ∧
      identityParts (auditFinding ["src/a.go"] "CWE-79") (some "https://host/repo") = .ok parts ∧
      ∀ other otherUrl otherStrict otherParts, fingerprint sha256 other otherUrl otherStrict = .ok value →
        identityParts other otherUrl = .ok otherParts → parts.Bound sha256 otherParts := by
  have accepted : (fingerprint sha256 (auditFinding ["src/a.go"] "CWE-79") (some "https://host/repo") true).isOk =
      true := by decide +kernel
  have known : identityParts (auditFinding ["src/a.go"] "CWE-79") (some "https://host/repo") =
      .ok ⟨"https://host/repo", ["src/a.go"], chars "CWE-79", []⟩ := by decide +kernel
  rcases exists_of_isOk accepted with ⟨value, computed⟩
  refine ⟨value, _, computed, known, (fingerprints_separate_iff computed known).1.mpr ?_⟩
  refine IdentityParts.unmistaken_of_plain ⟨?_, ?_⟩ ?_ rfl
  · decide +kernel
  · decide +kernel
  · decide +kernel

def OneFingerprint (H : HashFunction) (finding other : Dict) (repoUrl : Option String) : Prop :=
  ∃ value parts others, fingerprint H finding repoUrl true = .ok value ∧ fingerprint H other repoUrl true = .ok value ∧
    identityParts finding repoUrl = .ok parts ∧ identityParts other repoUrl = .ok others ∧ ¬ parts.Bound H others

theorem oneFingerprint_of_text {H : HashFunction} {finding other : Dict} {repoUrl : Option String}
    {parts others : IdentityParts} (known : identityParts finding repoUrl = .ok parts)
    (knownOther : identityParts other repoUrl = .ok others) (anchored : parts.anchors ≠ [] ∧ others.anchors ≠ [])
    (same : parts.text = others.text) (apart : parts ≠ others) : OneFingerprint H finding other repoUrl := by
  have payload : parts.payload = others.payload := by
    rw [IdentityParts.payload, IdentityParts.payload, same]
  refine ⟨hexDigest H parts.payload, parts, others, fingerprint_ok_iff.mpr ⟨parts, known, Or.inr anchored.1, rfl⟩,
    fingerprint_ok_iff.mpr ⟨others, knownOther, Or.inr anchored.2, by rw [payload]⟩, known, knownOther, ?_⟩
  intro bound
  rcases bound with equal | ⟨pair, found, _⟩
  · exact apart equal
  · rw [findCollision_self payload] at found
    cases found

/-- One file named `src/a;src/b` and two files, and a CWE named `CWE-79|K1` and a CWE with a check id. -/
theorem separators_shared :
    OneFingerprint sha256 (auditFinding ["src/a;src/b"] "CWE-79") (auditFinding ["src/a", "src/b"] "CWE-79")
      (some "https://host/repo") ∧
    OneFingerprint sha256 (auditFinding ["src/a"] "CWE-79|K1")
      ((auditFinding ["src/a"] "CWE-79").set "check_id" (.str "K1")) (some "https://host/repo") := by
  have onePath : identityParts (auditFinding ["src/a;src/b"] "CWE-79") (some "https://host/repo") =
      .ok ⟨"https://host/repo", ["src/a;src/b"], chars "CWE-79", []⟩ := by decide +kernel
  have twoPaths : identityParts (auditFinding ["src/a", "src/b"] "CWE-79") (some "https://host/repo") =
      .ok ⟨"https://host/repo", ["src/a", "src/b"], chars "CWE-79", []⟩ := by decide +kernel
  have oneCwe : identityParts (auditFinding ["src/a"] "CWE-79|K1") (some "https://host/repo") =
      .ok ⟨"https://host/repo", ["src/a"], chars "CWE-79|K1", []⟩ := by decide +kernel
  have checked : identityParts ((auditFinding ["src/a"] "CWE-79").set "check_id" (.str "K1"))
      (some "https://host/repo") = .ok ⟨"https://host/repo", ["src/a"], chars "CWE-79", chars "K1"⟩ := by
    decide +kernel
  constructor
  · exact oneFingerprint_of_text onePath twoPaths (by decide) (by decide +kernel) (by decide +kernel)
  · exact oneFingerprint_of_text oneCwe checked (by decide) (by decide +kernel) (by decide +kernel)

end LedgerProof
