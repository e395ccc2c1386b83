import TraustLedger.Proofs.FingerprintParts

namespace LedgerProof

open Hashing Python Runs Trimming LedgerModel

/-- No leading dot-slash or slash, no trailing slash, no repeated separator, no backslash, no surrounding space. -/
structure PathForm (text : List Char) : Prop where
  dotted : ¬ ['.', '/'] <+: text
  rooted : ¬ ['/'] <+: text
  ended : ¬ ['/'] <:+ text
  doubled : ¬ ['/', '/'] <:+: text
  backward : '\\' ∉ text
  stripped : stripChars text = text

def NormalPath (p : String) : Prop :=
  ∃ canon, canonPath (.str p) = .ok canon ∧ canonPath (.str canon) = .ok canon ∧ PathForm (chars canon)

def isSlash (c : Char) : Bool := c == '/' || c == '\\'

def dotOrSlash (c : Char) : Bool := c == '.' || isSlash c

/-- In the stripped text no space follows the dots and slashes at the start, and none stands before the slashes at
    the end. -/
def UnspacedEnds (p : List Char) : Prop :=
  HeadNot isSpace ((stripChars p).dropWhile dotOrSlash) ∧ LastNot isSpace ((stripChars p).rdropWhile isSlash)

instance (p : List Char) : Decidable (UnspacedEnds p) :=
  inferInstanceAs (Decidable (HeadNot _ _ ∧ LastNot _ _))

def PathsMeet (P : String → Prop) (finding : Dict) : Prop :=
  ∀ locations, finding.get "locations" = .arr locations → ∀ location, .obj location ∈ locations →
    ∀ p, Dict.get location "path" = .str p → P p

def canonicalLocation : Json → Json
  | .obj location =>
    match canonPath (Dict.get location "path") with
    | .ok canon => .obj (Dict.set location "path" (.str canon))
    | .error _ => .obj location
  | other => other

def canonicalLocations : Json → Json
  | .arr locations => .arr (locations.map canonicalLocation)
  | other => other

def canonicalFinding (finding : Dict) : Dict :=
  finding.set "locations" (canonicalLocations (finding.get "locations"))

section Collapsing

theorem getLast_collapseSlashes (text : List Char) : (collapseSlashes text).getLast? = text.getLast? := by
  induction text with
  | nil => rfl
  | cons c rest ih =>
    rw [collapseSlashes_cons]
    split
    · next doubled =>
      cases rest with
      | nil => cases doubled.2
      | cons d rest => rw [ih, List.getLast?_cons_cons]
    · rw [List.getLast?_cons, List.getLast?_cons, ih]

theorem dropWhile_collapseSlashes {drops : Char → Bool} (slash : drops '/' = true) (text : List Char) :
    (collapseSlashes text).dropWhile drops = collapseSlashes (text.dropWhile drops) := by
  induction text with
  | nil => rfl
  | cons c rest ih =>
    by_cases dropped : drops c = true
    · rw [List.dropWhile_cons_of_pos dropped, ← ih, collapseSlashes_cons]
      split
      · rfl
      · rw [List.dropWhile_cons_of_pos dropped]
    · have other : ¬ (c = '/' ∧ rest.head? = some '/') := by
        intro doubled
        rw [doubled.1] at dropped
        exact dropped slash
      rw [List.dropWhile_cons_of_neg dropped, collapseSlashes_cons, if_neg other,
        List.dropWhile_cons_of_neg dropped]

theorem collapseSlashes_append {text more : List Char} (apart : LastNot (· == '/') text) :
    collapseSlashes (text ++ more) = collapseSlashes text ++ collapseSlashes more := by
  induction text with
  | nil => rfl
  | cons c rest ih =>
    cases rest with
    | nil =>
      have other : c ≠ '/' := by simpa using apart c rfl
      rw [List.singleton_append, collapseSlashes_cons, if_neg (fun doubled => other doubled.1), collapseSlashes_cons,
        if_neg (fun doubled => other doubled.1)]
      rfl
    | cons d rest =>
      have later : LastNot (· == '/') (d :: rest) := by
        intro last member
        exact apart last (by rwa [List.getLast?_cons_cons])
      rw [List.cons_append, collapseSlashes_cons, ih later, List.cons_append, List.head?_cons, collapseSlashes_cons c,
        List.head?_cons]
      split
      · rfl
      · rfl

theorem rdropWhile_collapseSlashes (text : List Char) :
    (collapseSlashes text).rdropWhile (· == '/') = collapseSlashes (text.rdropWhile (· == '/')) := by
  have kept : LastNot (· == '/') (text.rdropWhile (· == '/')) := lastNot_rdropWhile _ _
  have whole : text.rdropWhile (· == '/') ++ text.rtakeWhile (· == '/') = text := List.rdropWhile_append_rtakeWhile
  have dropped : ∀ c ∈ collapseSlashes (text.rtakeWhile (· == '/')), (c == '/') = true := by
    intro c member
    exact List.mem_rtakeWhile_imp (p := (· == '/')) (mem_collapseSlashes member)
  conv_lhs => rw [← whole, collapseSlashes_append kept, rdropWhile_append_of_all dropped]
  refine rdropWhile_eq_self ?_
  intro last member
  rw [getLast_collapseSlashes] at member
  exact kept last member

end Collapsing

section Ends

theorem isSpace_forwardSlash (c : Char) : isSpace (forwardSlash c) = isSpace c := by
  unfold forwardSlash
  split
  · next back =>
    rw [back]
    rfl
  · rfl

theorem beq_forwardSlash (c : Char) : (forwardSlash c == '/') = isSlash c := by
  unfold forwardSlash isSlash
  split
  · next back =>
    rw [back]
    rfl
  · next other =>
    rw [beq_eq_false_iff_ne.mpr other, Bool.or_false]

def pathCore (p : List Char) : List Char := ((stripChars p).dropWhile dotOrSlash).rdropWhile isSlash

theorem canonPathText_eq (p : List Char) : canonPathText p = collapseSlashes ((pathCore p).map forwardSlash) := by
  have dots : (fun c => c == '.' || c == '/') ∘ forwardSlash = dotOrSlash := by
    funext c
    simp only [Function.comp, dotOrSlash, beq_forwardSlash]
    by_cases back : c = '\\'
    · rw [back]
      rfl
    · rw [forwardSlash, if_neg back]
  have slashes : (· == '/') ∘ forwardSlash = isSlash := funext beq_forwardSlash
  simp only [canonPathText, pathCore]
  rw [dropWhile_collapseSlashes (by rfl), rdropWhile_collapseSlashes, List.dropWhile_map, dots, List.rdropWhile,
    ← List.map_reverse, List.dropWhile_map, slashes, ← List.map_reverse, ← List.rdropWhile]

theorem headNot_canonPathText (p : List Char) :
    HeadNot isSpace (canonPathText p) ↔ HeadNot isSpace (pathCore p) := by
  rw [canonPathText_eq, HeadNot, HeadNot, head_collapseSlashes, List.head?_map]
  simp [isSpace_forwardSlash]

theorem lastNot_canonPathText (p : List Char) :
    LastNot isSpace (canonPathText p) ↔ LastNot isSpace (pathCore p) := by
  rw [canonPathText_eq, LastNot, LastNot, getLast_collapseSlashes, List.getLast?_map]
  simp [isSpace_forwardSlash]

theorem unspacedEnds_iff (p : List Char) :
    UnspacedEnds p ↔ HeadNot isSpace (pathCore p) ∧ LastNot isSpace (pathCore p) := by
  unfold UnspacedEnds pathCore
  have start : HeadNot isSlash ((stripChars p).dropWhile dotOrSlash) := by
    intro c first
    have kept := headNot_dropWhile dotOrSlash (stripChars p) c first
    rw [dotOrSlash, Bool.or_eq_false_iff] at kept
    exact kept.2
  have whole : (stripChars p).takeWhile dotOrSlash ++ (stripChars p).dropWhile dotOrSlash = stripChars p :=
    List.takeWhile_append_dropWhile
  cases rest : (stripChars p).dropWhile dotOrSlash with
  | nil =>
    rw [rest, List.append_nil] at whole
    have ending : LastNot isSpace ((stripChars p).rdropWhile isSlash) := by
      intro c last
      have member := (List.rdropWhile_prefix isSlash (stripChars p)).subset (List.mem_of_getLast? last)
      rw [← whole] at member
      have dropped := List.mem_takeWhile_imp member
      simp only [dotOrSlash, isSlash, Bool.or_eq_true, beq_iff_eq] at dropped
      rcases dropped with rfl | rfl | rfl
      · rfl
      · rfl
      · rfl
    simp [ending, headNot_nil, lastNot_nil]
  | cons c text =>
    rw [rest] at start whole
    have kept : (c :: text).rdropWhile isSlash ≠ [] := by
      intro none
      have all := List.rdropWhile_eq_nil_iff.mp none c List.mem_cons_self
      rw [headNot_cons.mp start] at all
      cases all
    have tail : (stripChars p).rdropWhile isSlash =
        (stripChars p).takeWhile dotOrSlash ++ (c :: text).rdropWhile isSlash := by
      conv_lhs => rw [← whole]
      exact rdropWhile_append_of_ne_nil kept
    rw [tail, lastNot_append kept, headNot_iff_of_start (List.rdropWhile_prefix _ _) kept]

end Ends

section Forms

theorem canonPathText_eq_self {text : List Char} (path : PathText text) (stripped : stripChars text = text) :
    canonPathText text = text := by
  rw [canonPathText, stripped, forward_eq_self path.forward, collapseSlashes_eq_self path.single]
  simp only [dropWhile_eq_self path.start, rdropWhile_eq_self path.ending]

theorem PathText.pathForm {text : List Char} (path : PathText text) (stripped : stripChars text = text) :
    PathForm text := by
  refine ⟨?_, ?_, ?_, ?_, path.forward, stripped⟩
  · intro dotted
    exact absurd (headNot_cons.mp (path.start.of_start dotted)) (by decide)
  · intro rooted
    exact absurd (headNot_cons.mp (path.start.of_start rooted)) (by decide)
  · intro ended
    rcases ended with ⟨before, rfl⟩
    exact absurd (lastNot_concat.mp path.ending) (by decide)
  · intro doubled
    have chained := List.IsChain.infix path.single doubled
    exact absurd chained (by decide)

theorem pathForm_nil : PathForm [] :=
  ⟨by decide, by decide, by decide, by decide, by decide, rfl⟩

theorem canonPath_str (p : String) : canonPath (.str p) = .ok (String.ofList (canonPathText (chars p))) := rfl

theorem normalPath_iff (p : String) : NormalPath p ↔ UnspacedEnds (chars p) := by
  have spaces : stripChars (canonPathText (chars p)) = canonPathText (chars p) ↔ UnspacedEnds (chars p) := by
    rw [stripChars_eq_self_iff, headNot_canonPathText, lastNot_canonPathText, unspacedEnds_iff]
  rw [← spaces]
  constructor
  · intro normal
    rcases normal with ⟨canon, once, _, form⟩
    rw [canonPath_str, Except.ok.injEq] at once
    rw [← once, chars_ofList] at form
    exact form.stripped
  · intro stripped
    refine ⟨_, canonPath_str p, ?_, ?_⟩
    · rw [canonPath_str, chars_ofList]
      by_cases filled : canonPathText (chars p) = []
      · rw [filled]
        rfl
      · rw [canonPathText_eq_self (pathText_canonPathText filled) stripped]
    · rw [chars_ofList]
      by_cases filled : canonPathText (chars p) = []
      · rw [filled]
        exact pathForm_nil
      · exact (pathText_canonPathText filled).pathForm stripped

end Forms

section Findings

theorem locationAnchor_canonicalLocation {location : Json}
    (normal : ∀ fields, location = .obj fields → ∀ p, Dict.get fields "path" = .str p → NormalPath p) :
    locationAnchor (canonicalLocation location) = locationAnchor location := by
  cases location with
  | obj fields =>
    have resource : "resource" ≠ "path" := by decide
    cases read : canonPath (Dict.get fields "path") with
    | error failure => simp only [canonicalLocation, read]
    | ok canon =>
      have again : canonPath (.str canon) = .ok canon := by
        cases path : Dict.get fields "path" with
        | str p =>
          rcases normal fields rfl p path with ⟨first, once, twice, _⟩
          rw [path, once, Except.ok.injEq] at read
          rwa [← read]
        | _ =>
          -- what is no text has a canonical form only where it is falsy, and that form is empty
          rw [path] at read
          simp only [canonPath, bind_ok_iff, pure, Except.pure, Except.ok.injEq] at read
          rcases read with ⟨_, _, rfl⟩
          rfl
      simp only [canonicalLocation, read, locationAnchor, Dict.get_set, if_true, if_neg resource, again]
  | _ => rfl

theorem anchorPaths_canonicalLocation {locations : List Json}
    (same : ∀ location ∈ locations, locationAnchor (canonicalLocation location) = locationAnchor location) :
    anchorPaths (locations.map canonicalLocation) = anchorPaths locations := by
  have mapped : (locations.map canonicalLocation).mapM locationAnchor = locations.mapM locationAnchor := by
    induction locations with
    | nil => rfl
    | cons location rest ih =>
      rw [List.map_cons, List.mapM_cons, List.mapM_cons, same location List.mem_cons_self,
        ih fun other member => same other (List.mem_cons_of_mem _ member)]
  rw [anchorPaths, mapped, anchorPaths]

theorem identityParts_canonicalFinding {finding : Dict} (normal : PathsMeet NormalPath finding)
    (repoUrl : Option String) : identityParts (canonicalFinding finding) repoUrl = identityParts finding repoUrl := by
  have cwes : "cwes" ≠ "locations" := by decide
  have cwe : "cwe" ≠ "locations" := by decide
  have check : "check_id" ≠ "locations" := by decide
  have primary : primaryCwe (canonicalFinding finding) = primaryCwe finding := by
    simp only [primaryCwe, cweList, canonicalFinding, Dict.get_set, if_neg cwes, if_neg cwe]
  have policy : policyCheck (canonicalFinding finding) = policyCheck finding := by
    simp only [policyCheck, canonicalFinding, Dict.get_set, if_neg check]
  have listed : (canonicalFinding finding).get "locations" = canonicalLocations (finding.get "locations") := by
    rw [canonicalFinding, Dict.get_set, if_pos rfl]
  rw [identityParts, primary, policy, listed, identityParts]
  cases held : finding.get "locations" with
  | arr locations =>
    rw [canonicalLocations, iteratedOr_arr, iteratedOr_arr]
    simp only [bind, Except.bind]
    rw [anchorPaths_canonicalLocation]
    intro location member
    refine locationAnchor_canonicalLocation ?_
    intro fields same p path
    exact normal locations held fields (same ▸ member) p path
  | _ => rfl

end Findings

section NormalForms

/-- A path has a normal form exactly where stripping its separators brings out no space, and a finding all of whose
    paths are such keeps its fingerprint when their canonical forms replace them. -/
theorem canon_path_normal_iff (p : String) (finding : Dict) :
    (NormalPath p ↔ UnspacedEnds (chars p)) ∧
      ((PathsMeet NormalPath finding ∧ ∀ H repoUrl strict value,
          fingerprint H (canonicalFinding finding) repoUrl strict = .ok value ↔
            fingerprint H finding repoUrl strict = .ok value) ↔
        PathsMeet (fun path => UnspacedEnds (chars path)) finding) := by
  refine ⟨normalPath_iff p, ?_⟩
  constructor
  · intro law locations listed location member path held
    exact (normalPath_iff path).mp (law.1 locations listed location member path held)
  · intro unspaced
    have normal : PathsMeet NormalPath finding := by
      intro locations listed location member path held
      exact (normalPath_iff path).mpr (unspaced locations listed location member path held)
    refine ⟨normal, ?_⟩
    intro H repoUrl strict value
    rw [fingerprint_ok_iff, fingerprint_ok_iff, identityParts_canonicalFinding normal]

/-- A space after a leading `./` is brought out by the first pass and dropped by the second. -/
theorem space_after_dot_slash_stays :
    canonPath (.str "./ a") = .ok " a" ∧ canonPath (.str " a") = .ok "a" ∧ ¬ NormalPath "./ a" := by
  refine ⟨by rfl, by rfl, ?_⟩
  rw [normalPath_iff]
  decide +kernel

end NormalForms

end LedgerProof
