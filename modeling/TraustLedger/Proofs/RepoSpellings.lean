import TraustLedger.Proofs.CanonicalTexts
import Mathlib.Logic.Relation

namespace LedgerProof

open Python Trimming LedgerModel

section Tails

/-- What a spelling may add at the end of a name, taken off the reversed text: slashes, spaces and `.git`. -/
def bareReversed : List Char → List Char
  | 't' :: 'i' :: 'g' :: '.' :: rest => bareReversed rest
  | c :: rest => if c == '/' || isSpace c then bareReversed rest else c :: rest
  | [] => []

def bare (text : List Char) : List Char := (bareReversed text.reverse).reverse

def reversedGit : List Char := ['t', 'i', 'g', '.']

theorem bareReversed_git (rest : List Char) : bareReversed (reversedGit ++ rest) = bareReversed rest := by
  simp only [reversedGit, List.cons_append, List.nil_append, bareReversed]

theorem bareReversed_dropped {c : Char} (dropped : (c == '/' || isSpace c) = true) (rest : List Char) :
    bareReversed (c :: rest) = bareReversed rest := by
  rw [bareReversed]
  · exact if_pos dropped
  · intro tail same _
    subst same
    exact absurd dropped (by decide)

structure KeptEnd (text : List Char) : Prop where
  head : HeadNot (fun c => c == '/' || isSpace c) text
  git : ¬ reversedGit <+: text

theorem KeptEnd.bareReversed_eq {text : List Char} (kept : KeptEnd text) : bareReversed text = text := by
  unfold bareReversed
  split
  · next rest => exact absurd ⟨rest, rfl⟩ kept.git
  · next c rest _ =>
    have stays := headNot_cons.mp kept.head
    simp only [stays, Bool.false_eq_true, if_false]
  · rfl

theorem bareReversed_induction {P : List Char → Prop} (git : ∀ rest, P rest → P (reversedGit ++ rest))
    (dropped : ∀ c rest, (c == '/' || isSpace c) = true → P rest → P (c :: rest)) (kept : ∀ text, KeptEnd text → P text)
    (text : List Char) : P text := by
  induction text using bareReversed.induct with
  | case1 rest ih => exact git rest ih
  | case2 c rest _ drops ih => exact dropped c rest drops ih
  | case3 c rest other stays =>
    refine kept _ ⟨headNot_cons.mpr (by simpa using stays), ?_⟩
    intro start
    rcases start with ⟨tail, same⟩
    cases same
    exact other tail rfl rfl
  | case4 => exact kept [] ⟨headNot_nil, by decide⟩

theorem kept_bareReversed (text : List Char) : KeptEnd (bareReversed text) := by
  induction text using bareReversed_induction with
  | git rest ih => rwa [bareReversed_git]
  | dropped c rest drops ih => rwa [bareReversed_dropped drops]
  | kept text kept => rwa [kept.bareReversed_eq]

theorem bareReversed_suffix (text : List Char) : bareReversed text <:+ text := by
  induction text using bareReversed_induction with
  | git rest ih =>
    rw [bareReversed_git]
    exact ih.trans (List.suffix_append _ _)
  | dropped c rest drops ih =>
    rw [bareReversed_dropped drops]
    exact ih.trans (List.suffix_cons _ _)
  | kept text kept => exact ⟨[], kept.bareReversed_eq⟩

theorem bareReversed_append (text more : List Char) :
    bareReversed (text ++ more) = bareReversed (bareReversed text ++ more) := by
  induction text using bareReversed_induction with
  | git rest ih => rw [bareReversed_git, List.append_assoc, bareReversed_git, ih]
  | dropped c rest drops ih => rw [bareReversed_dropped drops, List.cons_append, bareReversed_dropped drops, ih]
  | kept text kept => rw [kept.bareReversed_eq]

theorem KeptEnd.append_cons {text : List Char} (kept : KeptEnd text) (nonempty : text ≠ []) {c : Char}
    (apart : c ∉ ['i', 'g', '.']) (more : List Char) : KeptEnd (text ++ c :: more) := by
  refine ⟨kept.head.append nonempty, ?_⟩
  intro start
  rcases start with ⟨tail, same⟩
  simp only [reversedGit, List.cons_append, List.nil_append] at same
  match text, nonempty, kept, same with
  | [_], _, _, same => cases same; simp at apart
  | [_, _], _, _, same => cases same; simp at apart
  | [_, _, _], _, _, same => cases same; simp at apart
  | _ :: _ :: _ :: _ :: rest, _, kept, same =>
    simp only [List.cons_append, List.cons.injEq] at same
    rcases same with ⟨rfl, rfl, rfl, rfl, _⟩
    exact kept.git ⟨rest, rfl⟩

theorem bareReversed_append_cons {text : List Char} (left : bareReversed text ≠ []) {c : Char}
    (apart : c ∉ ['i', 'g', '.']) (more : List Char) :
    bareReversed (text ++ c :: more) = bareReversed text ++ c :: more := by
  rw [bareReversed_append, ((kept_bareReversed text).append_cons left apart more).bareReversed_eq]

theorem bareReversed_dropWhile {p : Char → Bool} (drops : ∀ c, p c = true → (c == '/' || isSpace c) = true)
    (text : List Char) : bareReversed (text.dropWhile p) = bareReversed text := by
  induction text with
  | nil => rfl
  | cons c text ih =>
    by_cases dropped : p c = true
    · rw [List.dropWhile_cons_of_pos dropped, ih, bareReversed_dropped (drops c dropped)]
    · rw [List.dropWhile_cons_of_neg dropped]

end Tails

section Forwards

variable (text more : List Char)

theorem bare_append : bare (text ++ more) = bare (text ++ bare more) := by
  simp only [bare, List.reverse_append, List.reverse_reverse, bareReversed_append more.reverse]

theorem bare_start : bare text <+: text := by
  rw [← List.reverse_suffix, bare, List.reverse_reverse]
  exact bareReversed_suffix text.reverse

@[simp] theorem bare_bare : bare (bare text) = bare text := by
  simp only [bare, List.reverse_reverse, (kept_bareReversed text.reverse).bareReversed_eq]

theorem bare_append_of_bare_eq_nil (junk : bare more = []) : bare (text ++ more) = bare text := by
  rw [bare_append, junk, List.append_nil]

theorem bare_spaces {spaces : List Char} (blank : ∀ c ∈ spaces, isSpace c = true) : bare spaces = [] := by
  rw [bare, ← bareReversed_dropWhile (p := isSpace) (by simp +contextual), List.dropWhile_eq_nil_iff.mpr]
  · rfl
  · simpa using blank

theorem bare_append_colon : bare (text ++ ':' :: more) = text ++ ':' :: bare more := by
  have kept : ∀ tail, KeptEnd (':' :: tail) := fun tail => ⟨headNot_cons.mpr (by decide), by simp [reversedGit]⟩
  have reversed : bareReversed (more.reverse ++ ':' :: text.reverse) =
      bareReversed more.reverse ++ ':' :: text.reverse := by
    by_cases empty : bareReversed more.reverse = []
    · rw [bareReversed_append, empty, List.nil_append, (kept _).bareReversed_eq]
    · exact bareReversed_append_cons empty (by decide) _
  simp only [bare, List.reverse_append, List.reverse_cons, List.append_assoc, List.singleton_append, reversed,
    List.reverse_reverse]

theorem bare_append_slash (left : bare more ≠ []) : bare (text ++ '/' :: more) = text ++ '/' :: bare more := by
  have reversed : bareReversed (more.reverse ++ '/' :: text.reverse) = bareReversed more.reverse ++ '/' :: text.reverse :=
    bareReversed_append_cons (by simpa [bare] using left) (by decide) text.reverse
  simp only [bare, List.reverse_append, List.reverse_cons, List.append_assoc, List.singleton_append, reversed,
    List.reverse_reverse]

end Forwards

section Rewriting

def scpText (host path : List Char) : List Char := ['g', 'i', 't', '@'] ++ (host ++ ':' :: path)

theorem takeWhile_host {host : List Char} (plain : ':' ∉ host) (path : List Char) :
    (host ++ ':' :: path).takeWhile (· != ':') = host ∧ (host ++ ':' :: path).dropWhile (· != ':') = ':' :: path := by
  have all : ∀ c ∈ host, (c != ':') = true := by
    intro c member
    simpa using fun same : c = ':' => plain (same ▸ member)
  constructor
  · rw [List.takeWhile_append_of_pos all]
    simp
  · rw [List.dropWhile_append_of_pos all]
    simp

theorem scpForm_scpText {host : List Char} (named : host ≠ []) (plain : ':' ∉ host) (path : List Char) :
    scpForm (scpText host path) = https ++ (host ++ '/' :: path) := by
  have found : List.isPrefixOf? ['g', 'i', 't', '@'] (scpText host path) = some (host ++ ':' :: path) :=
    List.isPrefixOf?_eq_some_iff_append_eq.mpr rfl
  rcases takeWhile_host plain path with ⟨taken, dropped⟩
  cases host with
  | nil => exact absurd rfl named
  | cons first host =>
    simp only [scpForm, found, taken, dropped]
    rw [List.append_assoc]

theorem scpForm_cases (text : List Char) :
    (∃ host path, host ≠ [] ∧ ':' ∉ host ∧ text = scpText host path) ∨ scpForm text = text := by
  unfold scpForm
  split
  · exact Or.inr rfl
  · next rest found =>
    split
    · next first host colon path taken dropped =>
      have whole := List.isPrefixOf?_eq_some_iff_append_eq.mp found
      have halves := List.takeWhile_append_dropWhile (p := (· != ':')) (l := rest)
      rw [taken, dropped] at halves
      have isColon : colon = ':' := by
        have stays := headNot_dropWhile (· != ':') rest
        rw [dropped, headNot_cons] at stays
        simpa using stays
      subst isColon
      refine Or.inl ⟨first :: host, path, List.cons_ne_nil _ _, ?_, ?_⟩
      · intro member
        have kept := List.mem_takeWhile_imp (p := (· != ':')) (taken ▸ member)
        simp at kept
      · rw [scpText, halves, whole]
    · exact Or.inr rfl

theorem schemeForm_scheme {scheme : List Char} (known : scheme ∈ schemes) (rest : List Char) :
    schemeForm (scheme ++ rest) = https ++ rest := by
  simp only [schemes, List.mem_cons, List.not_mem_nil, or_false] at known
  rcases known with rfl | rfl | rfl | rfl <;>
    simp [schemeForm, schemes, https, List.isPrefixOf?]

theorem schemeForm_cases (text : List Char) :
    (∃ scheme ∈ schemes, ∃ rest, text = scheme ++ rest) ∨ schemeForm text = text := by
  unfold schemeForm
  split
  · exact Or.inr rfl
  · next rest found =>
    rcases List.exists_of_findSome?_eq_some found with ⟨scheme, known, start⟩
    exact Or.inl ⟨scheme, known, rest, (List.isPrefixOf?_eq_some_iff_append_eq.mp start).symm⟩

theorem scpForm_scheme {scheme : List Char} (known : scheme ∈ schemes) (rest : List Char) :
    scpForm (scheme ++ rest) = scheme ++ rest := by
  simp only [schemes, List.mem_cons, List.not_mem_nil, or_false] at known
  rcases known with rfl | rfl | rfl | rfl <;>
    simp [scpForm, https, List.isPrefixOf?]

def rewritten (text : List Char) : List Char := schemeForm (scpForm text)

theorem rewritten_scpText {host : List Char} (named : host ≠ []) (plain : ':' ∉ host) (path : List Char) :
    rewritten (scpText host path) = https ++ (host ++ '/' :: path) := by
  rw [rewritten, scpForm_scpText named plain, schemeForm_scheme (by simp [schemes])]

theorem rewritten_scheme {scheme : List Char} (known : scheme ∈ schemes) (rest : List Char) :
    rewritten (scheme ++ rest) = https ++ rest := by
  rw [rewritten, scpForm_scheme known, schemeForm_scheme known]

/-- Neither rewrite changes the text: what is no SSH address and has no scheme but `https`. -/
structure Unrewritten (text : List Char) : Prop where
  address : ∀ host path, host ≠ [] → ':' ∉ host → text ≠ scpText host path
  scheme : ∀ scheme ∈ schemes, scheme <+: text → scheme = https

theorem Unrewritten.rewritten_eq {text : List Char} (settled : Unrewritten text) : rewritten text = text := by
  have unaddressed : scpForm text = text := by
    rcases scpForm_cases text with ⟨host, path, named, plain, same⟩ | same
    · exact absurd same (settled.address host path named plain)
    · exact same
  rw [rewritten, unaddressed]
  rcases schemeForm_cases text with ⟨scheme, known, rest, rfl⟩ | same
  · rw [settled.scheme scheme known ⟨rest, rfl⟩, schemeForm_scheme (by simp [schemes])]
  · exact same

theorem Unrewritten.of_start {text start : List Char} (settled : Unrewritten text) (within : start <+: text) :
    Unrewritten start := by
  refine ⟨?_, fun scheme known first => settled.scheme scheme known (first.trans within)⟩
  intro host path named plain same
  rcases within with ⟨rest, rfl⟩
  refine settled.address host (path ++ rest) named plain ?_
  rw [same]
  simp [scpText]

theorem unrewritten_https (rest : List Char) : Unrewritten (https ++ rest) := by
  constructor
  · intro host path _ _ same
    simp [https, scpText] at same
  · intro scheme known start
    rcases start with ⟨tail, same⟩
    simp only [schemes, List.mem_cons, List.not_mem_nil, or_false] at known
    rcases known with rfl | rfl | rfl | rfl
    · simp [https] at same
    · rfl
    · simp [https] at same
    · simp [https] at same

theorem repo_text_cases (text : List Char) :
    (∃ host path, host ≠ [] ∧ ':' ∉ host ∧ text = scpText host path) ∨
      (∃ scheme ∈ schemes, ∃ rest, text = scheme ++ rest) ∨ (Unrewritten text ∧ ∀ scheme ∈ schemes, ¬ scheme <+: text) := by
  by_cases address : ∃ host path, host ≠ [] ∧ ':' ∉ host ∧ text = scpText host path
  · exact Or.inl address
  by_cases scheme : ∃ scheme ∈ schemes, ∃ rest, text = scheme ++ rest
  · exact Or.inr (Or.inl scheme)
  have other : ∀ scheme ∈ schemes, ¬ scheme <+: text := by
    intro name known start
    rcases start with ⟨rest, same⟩
    exact scheme ⟨name, known, rest, same.symm⟩
  refine Or.inr (Or.inr ⟨⟨?_, ?_⟩, other⟩)
  · intro host path named plain same
    exact address ⟨host, path, named, plain, same⟩
  · intro name known start
    exact absurd start (other name known)

theorem unrewritten_rewritten (text : List Char) : Unrewritten (rewritten text) := by
  rcases repo_text_cases text with ⟨host, path, named, plain, rfl⟩ | ⟨scheme, known, rest, rfl⟩ | ⟨settled, _⟩
  · rw [rewritten_scpText named plain]
    exact unrewritten_https _
  · rw [rewritten_scheme known]
    exact unrewritten_https _
  · rwa [settled.rewritten_eq]

end Rewriting

section Results

def repoUrl (url : List Char) : List Char := rewritten (asciiLower (stripChars url))

def dropTail (url : List Char) : List Char := (dropGit url).rdropWhile (· == '/')

theorem canonRepoText_eq (url : List Char) : canonRepoText url = dropTail (repoUrl url) := rfl

/-- What stands before the tail that is dropped is neither a `.git` nor a space. -/
def CleanTail (url : List Char) : Prop :=
  ∀ head unit slashes suffix, unit = gitSuffix ∨ (∃ c, isSpace c = true ∧ unit = [c]) → (∀ c ∈ slashes, c = '/') →
    suffix = [] ∨ suffix = gitSuffix → url = head ++ unit ++ slashes ++ suffix →
      unit = gitSuffix ∧ slashes = [] ∧ suffix = []

theorem dropGit_append (text : List Char) : dropGit (text ++ gitSuffix) = text := by
  rw [dropGit, if_pos (List.isSuffixOf_iff_suffix.mpr (List.suffix_append _ _))]
  simp

theorem dropGit_other {text : List Char} (other : ¬ gitSuffix <:+ text) : dropGit text = text := by
  rw [dropGit, if_neg (mt List.isSuffixOf_iff_suffix.mp other)]

theorem dropTail_append {text slashes : List Char} (kept : LastNot (· == '/') text) (all : ∀ c ∈ slashes, c = '/') :
    (text ++ slashes).rdropWhile (· == '/') = text := by
  rw [rdropWhile_append_of_all (by simpa using all), rdropWhile_eq_self kept]

theorem dropTail_spec (url : List Char) : ∃ slashes suffix, (∀ c ∈ slashes, c = '/') ∧
    url = dropTail url ++ slashes ++ suffix ∧ (suffix = gitSuffix ∨ suffix = [] ∧ ¬ gitSuffix <:+ url) := by
  have slashes : ∀ text : List Char, ∀ c ∈ text.rtakeWhile (· == '/'), c = '/' := by
    intro text c member
    simpa using List.mem_rtakeWhile_imp member
  by_cases git : gitSuffix <:+ url
  · rcases git with ⟨text, rfl⟩
    refine ⟨text.rtakeWhile (· == '/'), gitSuffix, slashes text, ?_, Or.inl rfl⟩
    rw [dropTail, dropGit_append, List.rdropWhile_append_rtakeWhile]
  · refine ⟨url.rtakeWhile (· == '/'), [], slashes url, ?_, Or.inr ⟨rfl, git⟩⟩
    rw [dropTail, dropGit_other git, List.rdropWhile_append_rtakeWhile, List.append_nil]

theorem lastNot_dropTail (url : List Char) : LastNot (· == '/') (dropTail url) := lastNot_rdropWhile _ _

theorem bare_slashes {slashes : List Char} (all : ∀ c ∈ slashes, c = '/') : bare slashes = [] := by
  rw [bare, ← bareReversed_dropWhile (p := (· == '/')) (by simp +contextual), List.dropWhile_eq_nil_iff.mpr]
  · rfl
  · simpa using all

theorem bare_gitSuffix : bare gitSuffix = [] := by
  decide +kernel

theorem bare_dropTail (url : List Char) : bare (dropTail url) = bare url := by
  rcases dropTail_spec url with ⟨slashes, suffix, all, same, last⟩
  have junk : bare suffix = [] := by
    rcases last with rfl | ⟨rfl, _⟩
    · exact bare_gitSuffix
    · rfl
  rw [same, bare_append_of_bare_eq_nil _ _ junk, bare_append_of_bare_eq_nil _ _ (bare_slashes all), ← same]

def BareEnd (text : List Char) : Prop := LastNot isSpace text ∧ ¬ gitSuffix <:+ text

theorem BareEnd.bare_eq {text : List Char} (ends : BareEnd text) (slash : LastNot (· == '/') text) : bare text = text := by
  have kept : KeptEnd text.reverse := by
    constructor
    · intro c first
      rw [Bool.or_eq_false_iff]
      exact ⟨headNot_reverse.mpr slash c first, headNot_reverse.mpr ends.1 c first⟩
    · intro start
      exact ends.2 (List.reverse_prefix.mp start)
  rw [bare, kept.bareReversed_eq, List.reverse_reverse]

theorem cleanTail_iff (url : List Char) : CleanTail url ↔ BareEnd (dropTail url) := by
  constructor
  · intro clean
    rcases dropTail_spec url with ⟨slashes, suffix, all, same, last⟩
    have last' : suffix = [] ∨ suffix = gitSuffix := last.symm.imp And.left id
    constructor
    · intro c final
      rcases List.getLast?_eq_some_iff.mp final with ⟨head, whole⟩
      by_contra space
      have wrong := clean head [c] slashes suffix (Or.inr ⟨c, by simpa using space, rfl⟩) all last'
        (by rw [← whole]; exact same)
      simp [gitSuffix] at wrong
    · intro git
      rcases git with ⟨head, whole⟩
      have wrong := clean head gitSuffix slashes suffix (Or.inl rfl) all last' (by rw [whole]; exact same)
      rcases wrong with ⟨_, rfl, rfl⟩
      rcases last with none | ⟨_, other⟩
      · cases none
      · exact other ⟨head, by rw [same, List.append_nil, List.append_nil, whole]⟩
  · intro ends head unit slashes suffix kind all last same
    have kept : LastNot (· == '/') (head ++ unit) := by
      rcases kind with rfl | ⟨c, space, rfl⟩
      · exact LastNot.append (by decide) (by decide)
      · have apart : c ≠ '/' := by
          intro slash
          subst slash
          cases space
        exact lastNot_concat.mpr (by simpa using apart)
    have open_end : ¬ BareEnd (head ++ unit) := by
      rcases kind with rfl | ⟨c, space, rfl⟩
      · exact fun bareEnd => bareEnd.2 (List.suffix_append _ _)
      · exact fun bareEnd => by simpa [space] using lastNot_concat.mp bareEnd.1
    rcases last with rfl | rfl
    · rw [List.append_nil] at same
      by_cases git : gitSuffix <:+ url
      · -- the text ends in `.git` and in no slash, so the unit is that `.git`
        have ended : LastNot (fun c => c == '/' || isSpace c) url := by
          rcases git with ⟨text, rfl⟩
          exact LastNot.append (by decide) (by decide)
        rcases List.eq_nil_or_concat slashes with rfl | ⟨init, c, rfl⟩
        · rcases kind with rfl | ⟨c, space, rfl⟩
          · exact ⟨rfl, rfl, rfl⟩
          · rw [same, List.append_nil, lastNot_concat, space] at ended
            simp at ended
        · rw [same, List.concat_eq_append, ← List.append_assoc, lastNot_concat, all c (by simp)] at ended
          simp at ended
      · rw [dropTail, dropGit_other git, same, dropTail_append kept all] at ends
        exact absurd ends open_end
    · rw [dropTail, same, dropGit_append, dropTail_append kept all] at ends
      exact absurd ends open_end

theorem dropTail_start (url : List Char) : dropTail url <+: url := by
  rcases dropTail_spec url with ⟨slashes, suffix, _, same, _⟩
  exact ⟨slashes ++ suffix, by rw [← List.append_assoc, ← same]⟩

theorem asciiLower_eq_self_iff {text : List Char} : asciiLower text = text ↔ ∀ c ∈ text, lowerChar c = c := by
  conv_lhs => rhs; rw [← List.map_id text]
  exact List.map_inj_left

theorem asciiLower_rewritten {text : List Char} (lower : asciiLower text = text) :
    asciiLower (rewritten text) = rewritten text := by
  rw [asciiLower_eq_self_iff] at lower ⊢
  have inLower : ∀ c ∈ https ++ ['/'], lowerChar c = c := by
    rw [← asciiLower_eq_self_iff]
    decide +kernel
  intro c member
  rcases repo_text_cases text with ⟨host, path, named, plain, rfl⟩ | ⟨scheme, known, rest, rfl⟩ | ⟨settled, _⟩
  · rw [rewritten_scpText named plain] at member
    simp only [List.mem_append, List.mem_cons] at member
    rcases member with inScheme | inHost | slash | inPath
    · exact inLower c (by simp [inScheme])
    · exact lower c (by simp [scpText, inHost])
    · exact inLower c (by simp [slash])
    · exact lower c (by simp [scpText, inPath])
  · rw [rewritten_scheme known, List.mem_append] at member
    rcases member with inScheme | inRest
    · exact inLower c (by simp [inScheme])
    · exact lower c (by simp [inRest])
  · rw [settled.rewritten_eq] at member
    exact lower c member

theorem headNot_rewritten {text : List Char} (start : HeadNot isSpace text) : HeadNot isSpace (rewritten text) := by
  rcases repo_text_cases text with ⟨host, path, named, plain, rfl⟩ | ⟨scheme, known, rest, rfl⟩ | ⟨settled, _⟩
  · rw [rewritten_scpText named plain]
    exact HeadNot.append (by decide) (by decide)
  · rw [rewritten_scheme known]
    exact HeadNot.append (by decide) (by decide)
  · rwa [settled.rewritten_eq]

theorem headNot_repoUrl (url : List Char) : HeadNot isSpace (repoUrl url) := by
  apply headNot_rewritten
  rw [← stripChars_asciiLower]
  exact headNot_rdropWhile (headNot_dropWhile isSpace _)

theorem asciiLower_repoUrl (url : List Char) : asciiLower (repoUrl url) = repoUrl url :=
  asciiLower_rewritten (asciiLower_asciiLower _)

theorem repoUrl_of_start {url start : List Char} (within : start <+: repoUrl url) :
    repoUrl start = start.rdropWhile isSpace := by
  have stripped : stripChars start = start.rdropWhile isSpace := by
    rw [stripChars_eq, dropWhile_eq_self ((headNot_repoUrl url).of_start within)]
  have shorter : start.rdropWhile isSpace <+: repoUrl url := (List.rdropWhile_prefix _ _).trans within
  have lower : asciiLower (start.rdropWhile isSpace) = start.rdropWhile isSpace := by
    rw [asciiLower_eq_self_iff]
    intro c member
    exact asciiLower_eq_self_iff.mp (asciiLower_repoUrl url) c (shorter.subset member)
  rw [repoUrl, stripped, lower, ((unrewritten_rewritten _).of_start shorter).rewritten_eq]

/-- Canonicalising again changes nothing, and neither a slash nor `.git` ends the result. -/
structure NormalForm (url : String) : Prop where
  idempotent : canonRepo (some (canonRepo (some url))) = canonRepo (some url)
  slash : ¬ ['/'] <:+ chars (canonRepo (some url))
  git : ¬ gitSuffix <:+ chars (canonRepo (some url))

theorem chars_canonRepo (url : String) : chars (canonRepo (some url)) = dropTail (repoUrl (chars url)) := by
  simp [canonRepo, canonRepoText_eq]

theorem idempotent_iff (url : List Char) (git : ¬ gitSuffix <:+ dropTail (repoUrl url)) :
    dropTail (repoUrl (dropTail (repoUrl url))) = dropTail (repoUrl url) ↔
      LastNot isSpace (dropTail (repoUrl url)) := by
  have kept := lastNot_dropTail (repoUrl url)
  rw [repoUrl_of_start (dropTail_start _)]
  generalize dropTail (repoUrl url) = text at git kept ⊢
  constructor
  · intro same
    have shorter : text <+: text.rdropWhile isSpace := by
      have start := dropTail_start (text.rdropWhile isSpace)
      rwa [same] at start
    rw [shorter.eq_of_length_le (List.rdropWhile_prefix _ _).length_le]
    exact lastNot_rdropWhile _ _
  · intro ends
    rw [rdropWhile_eq_self ends, dropTail, dropGit_other git, rdropWhile_eq_self kept]

theorem normalForm_iff (url : String) : NormalForm url ↔ CleanTail (repoUrl (chars url)) := by
  rw [cleanTail_iff]
  constructor
  · intro normal
    have git := normal.git
    have same := congrArg chars normal.idempotent
    rw [chars_canonRepo, chars_canonRepo] at same
    rw [chars_canonRepo] at git
    exact ⟨(idempotent_iff _ git).mp same, git⟩
  · intro ends
    refine ⟨chars_injective ?_, ?_, ?_⟩
    · rw [chars_canonRepo, chars_canonRepo]
      exact (idempotent_iff _ ends.2).mpr ends.1
    · rw [chars_canonRepo]
      intro last
      rcases last with ⟨text, whole⟩
      have kept := lastNot_dropTail (repoUrl (chars url))
      rw [← whole, lastNot_concat] at kept
      simp at kept
    · rw [chars_canonRepo]
      exact ends.2

end Results

section Spellings

/-- One change of how a repository is written. -/
inductive Respelled : List Char → List Char → Prop
  | scheme {one other : List Char} (known : one ∈ schemes) (also : other ∈ schemes) (rest : List Char) :
    Respelled (one ++ rest) (other ++ rest)
  | git (text : List Char) : Respelled text (text ++ gitSuffix)
  | slash (text : List Char) : Respelled text (text ++ ['/'])
  | recase {text other : List Char} (same : asciiLower text = asciiLower other) : Respelled text other
  | spaces {before after : List Char} (text : List Char) (first : ∀ c ∈ before, isSpace c = true)
    (last : ∀ c ∈ after, isSpace c = true) : Respelled text (before ++ text ++ after)

def stubs : List (List Char) := [['h', 't', 't', 'p', ':'], ['s', 's', 'h', ':'], ['g', 'i', 't', ':']]

def schemeStub (url : List Char) : Option (List Char) :=
  stubs.find? fun stub =>
    [stub, stub ++ ['/'], stub ++ gitSuffix, stub ++ '/' :: gitSuffix].contains (asciiLower (stripChars url))

def bareRepo (text : List Char) : List Char :=
  if stubs.contains text then ['h', 't', 't', 'p', 's', ':'] else bare (rewritten text)

theorem bareRepo_of_not_stub {text : List Char} (unstubbed : text ∉ stubs) : bareRepo text = bare (rewritten text) :=
  if_neg fun listed => unstubbed (List.contains_iff_mem.mp listed)

theorem scheme_name {scheme : List Char} (known : scheme ∈ schemes) : ∃ name, scheme = name ++ [':', '/', '/'] := by
  simp only [schemes, List.mem_cons, List.not_mem_nil, or_false] at known
  rcases known with rfl | rfl | rfl | rfl
  · exact ⟨['h', 't', 't', 'p'], rfl⟩
  · exact ⟨['h', 't', 't', 'p', 's'], rfl⟩
  · exact ⟨['s', 's', 'h'], rfl⟩
  · exact ⟨['g', 'i', 't'], rfl⟩

theorem bare_scheme_of_ne_nil {scheme rest : List Char} (known : scheme ∈ schemes) (left : bare rest ≠ []) :
    bare (scheme ++ rest) = scheme ++ bare rest := by
  rcases scheme_name known with ⟨name, rfl⟩
  have slashes := bare_append_slash (name ++ [':', '/']) rest left
  simpa using slashes

theorem bareRepo_scheme {scheme : List Char} (known : scheme ∈ schemes) (rest : List Char) :
    bareRepo (bare (scheme ++ rest)) = bare (https ++ rest) := by
  by_cases junk : bare rest = []
  · rw [bare_append_of_bare_eq_nil _ _ junk, bare_append_of_bare_eq_nil _ _ junk]
    revert scheme
    decide +kernel
  · have unstubbed : scheme ++ bare rest ∉ stubs := by
      simp only [schemes, List.mem_cons, List.not_mem_nil, or_false] at known
      rcases known with rfl | rfl | rfl | rfl <;> simp [stubs, https]
    rw [bare_scheme_of_ne_nil known junk, bareRepo_of_not_stub unstubbed, rewritten_scheme known, ← bare_append]

/-- A start that is no scheme, and bare a scheme's name. -/
def Stubbed (text : List Char) : Prop := bare text ∈ stubs ∧ ∀ scheme ∈ schemes, ¬ scheme <+: text

theorem bare_scpText (host path : List Char) : bare (scpText host path) = scpText host (bare path) := by
  have colon := bare_append_colon (['g', 'i', 't', '@'] ++ host) path
  simpa [scpText] using colon

theorem scpText_not_stub (host path : List Char) : scpText host path ∉ stubs := by
  simp [stubs, scpText]

theorem bare_rewritten {text : List Char} (whole : ¬ Stubbed text) : bare (rewritten text) = bareRepo (bare text) := by
  rcases repo_text_cases text with ⟨host, path, named, plain, rfl⟩ | ⟨scheme, known, rest, rfl⟩ | ⟨settled, other⟩
  · rw [rewritten_scpText named plain, bare_scpText, bareRepo_of_not_stub (scpText_not_stub _ _),
      rewritten_scpText named plain]
    have apart := bare_append (https ++ (host ++ ['/'])) path
    simpa using apart
  · rw [rewritten_scheme known, bareRepo_scheme known]
  · have unstubbed : bare text ∉ stubs := fun stub => whole ⟨stub, other⟩
    rw [settled.rewritten_eq, bareRepo_of_not_stub unstubbed, (settled.of_start (bare_start text)).rewritten_eq, bare_bare]

theorem Stubbed.rewritten_eq {text : List Char} (stubbed : Stubbed text) : rewritten text = text := by
  rcases repo_text_cases text with ⟨host, path, named, plain, rfl⟩ | ⟨scheme, known, rest, rfl⟩ | ⟨settled, _⟩
  · have stub := stubbed.1
    rw [bare_scpText] at stub
    exact absurd stub (scpText_not_stub _ _)
  · exact absurd ⟨rest, rfl⟩ (stubbed.2 scheme known)
  · exact settled.rewritten_eq

def bareName (url : List Char) : List Char := bare ((asciiLower url).dropWhile isSpace)

theorem bare_stripped (url : List Char) : bare (asciiLower (stripChars url)) = bareName url := by
  rw [← stripChars_asciiLower, stripChars_eq, bareName]
  simp only [bare, List.rdropWhile, List.reverse_reverse]
  rw [bareReversed_dropWhile (by simp +contextual)]

theorem dropWhile_append_tail {text tail : List Char} (start : HeadNot isSpace tail) :
    (text ++ tail).dropWhile isSpace = text.dropWhile isSpace ++ tail := by
  rw [List.dropWhile_append]
  split
  · next empty => rw [List.isEmpty_iff.mp empty, List.nil_append, dropWhile_eq_self start]
  · rfl

theorem bareName_append_tail {tail : List Char} (text : List Char) (start : HeadNot isSpace (asciiLower tail))
    (junk : bare (asciiLower tail) = []) : bareName (text ++ tail) = bareName text := by
  rw [bareName, asciiLower_append, dropWhile_append_tail start, bare_append_of_bare_eq_nil _ _ junk]
  rfl

theorem isSpace_of_mem_asciiLower {spaces : List Char} (blank : ∀ c ∈ spaces, isSpace c = true) :
    ∀ c ∈ asciiLower spaces, isSpace c = true := by
  intro c member
  rcases List.mem_map.mp member with ⟨d, within, rfl⟩
  rw [isSpace_lowerChar, blank d within]

theorem bareName_spaces {before after : List Char} (text : List Char) (first : ∀ c ∈ before, isSpace c = true)
    (last : ∀ c ∈ after, isSpace c = true) : bareName (before ++ text ++ after) = bareName text := by
  simp only [bareName, asciiLower_append, List.append_assoc]
  rw [List.dropWhile_append_of_pos (isSpace_of_mem_asciiLower first), List.dropWhile_append]
  split
  · next empty =>
    rw [List.isEmpty_iff.mp empty, List.dropWhile_eq_nil_iff.mpr (isSpace_of_mem_asciiLower last)]
  · rw [bare_append_of_bare_eq_nil _ _ (bare_spaces (isSpace_of_mem_asciiLower last))]

theorem bareName_scheme {scheme : List Char} (known : scheme ∈ schemes) (rest : List Char) :
    bareName (scheme ++ rest) = bare (scheme ++ asciiLower rest) := by
  have lower : asciiLower scheme = scheme ∧ HeadNot isSpace scheme ∧ scheme ≠ [] := by
    revert scheme
    decide +kernel
  rw [bareName, asciiLower_append, lower.1, dropWhile_eq_self (lower.2.1.append lower.2.2)]

theorem Respelled.bareRepo_eq {text other : List Char} (respelled : Respelled text other) :
    bareRepo (bareName text) = bareRepo (bareName other) := by
  cases respelled with
  | scheme known also rest =>
    rw [bareName_scheme known, bareName_scheme also, bareRepo_scheme known, bareRepo_scheme also]
  | git => rw [bareName_append_tail text (by decide +kernel) (by decide +kernel)]
  | slash => rw [bareName_append_tail text (by decide +kernel) (by decide +kernel)]
  | recase same => rw [bareName, bareName, same]
  | spaces _ first last => rw [bareName_spaces text first last]

theorem alike_bareRepo {text other : List Char} (alike : Relation.EqvGen Respelled text other) :
    bareRepo (bareName text) = bareRepo (bareName other) := by
  induction alike with
  | rel _ _ respelled => exact respelled.bareRepo_eq
  | refl => rfl
  | symm _ _ _ ih => exact ih.symm
  | trans _ _ _ _ _ first second => exact first.trans second

theorem dropTail_eq_bare {url : List Char} (clean : CleanTail (repoUrl url)) :
    dropTail (repoUrl url) = bare (repoUrl url) := by
  rw [← bare_dropTail, ((cleanTail_iff _).mp clean).bare_eq (lastNot_dropTail _)]

theorem canon_of_not_stubbed {url : List Char} (clean : CleanTail (repoUrl url))
    (whole : ¬ Stubbed (asciiLower (stripChars url))) : dropTail (repoUrl url) = bareRepo (bareName url) := by
  rw [dropTail_eq_bare clean, repoUrl, bare_rewritten whole, bare_stripped]

theorem canon_of_stubbed {url : List Char} (clean : CleanTail (repoUrl url))
    (stubbed : Stubbed (asciiLower (stripChars url))) :
    dropTail (repoUrl url) = bareName url ∧ bareName url ∈ stubs := by
  rw [dropTail_eq_bare clean, repoUrl, stubbed.rewritten_eq, bare_stripped]
  exact ⟨rfl, bare_stripped url ▸ stubbed.1⟩

theorem schemeStub_some {url stub : List Char} (found : schemeStub url = some stub) :
    Stubbed (asciiLower (stripChars url)) ∧ bareName url = stub := by
  have member := List.mem_of_find?_eq_some found
  have texts := List.find?_some found
  simp only [List.contains_iff_mem] at texts
  rw [← bare_stripped]
  generalize asciiLower (stripChars url) = text at texts ⊢
  have checked : ∀ stub ∈ stubs, ∀ text ∈ [stub, stub ++ ['/'], stub ++ gitSuffix, stub ++ '/' :: gitSuffix],
      bare text = stub ∧ ∀ scheme ∈ schemes, ¬ scheme <+: text := by
    decide +kernel
  rcases checked stub member text texts with ⟨same, other⟩
  exact ⟨⟨same ▸ member, other⟩, same⟩

theorem schemeStub_of_stubbed {url : List Char} (clean : CleanTail (repoUrl url))
    (stubbed : Stubbed (asciiLower (stripChars url))) : schemeStub url = some (bareName url) := by
  rcases canon_of_stubbed clean stubbed with ⟨same, stub⟩
  rcases dropTail_spec (repoUrl url) with ⟨slashes, suffix, all, whole, last⟩
  rw [same, repoUrl, stubbed.rewritten_eq] at whole
  have texts : asciiLower (stripChars url) ∈ [bareName url, bareName url ++ ['/'], bareName url ++ gitSuffix,
      bareName url ++ '/' :: gitSuffix] := by
    have short : slashes = [] ∨ slashes = ['/'] := by
      match slashes, all with
      | [], _ => exact Or.inl rfl
      | [c], all => exact Or.inr (by rw [all c (by simp)])
      | c :: d :: more, all =>
        have scheme : ∀ stub ∈ stubs, stub ++ ['/', '/'] ∈ schemes := by decide
        refine absurd ⟨more ++ suffix, ?_⟩ (stubbed.2 _ (scheme _ stub))
        rw [whole, all c (by simp), all d (by simp)]
        simp
    rw [whole]
    rcases last with rfl | ⟨rfl, _⟩
    · rcases short with rfl | rfl
      · simp
      · simp
    · rcases short with rfl | rfl
      · simp
      · simp
  have checked : ∀ stub ∈ stubs, ∀ text ∈ [stub, stub ++ ['/'], stub ++ gitSuffix, stub ++ '/' :: gitSuffix],
      (stubs.find? fun stub => [stub, stub ++ ['/'], stub ++ gitSuffix, stub ++ '/' :: gitSuffix].contains text) =
        some stub := by
    decide +kernel
  exact checked _ stub _ texts

theorem canon_cases {url : List Char} (clean : CleanTail (repoUrl url)) :
    (schemeStub url = none ∧ dropTail (repoUrl url) = bareRepo (bareName url)) ∨
      ∃ stub ∈ stubs, schemeStub url = some stub ∧ dropTail (repoUrl url) = stub ∧
        bareRepo (bareName url) = ['h', 't', 't', 'p', 's', ':'] := by
  by_cases stubbed : Stubbed (asciiLower (stripChars url))
  · rcases canon_of_stubbed clean stubbed with ⟨same, stub⟩
    exact Or.inr ⟨_, stub, schemeStub_of_stubbed clean stubbed, same, if_pos (List.contains_iff_mem.mpr stub)⟩
  · refine Or.inl ⟨?_, canon_of_not_stubbed clean stubbed⟩
    cases found : schemeStub url with
    | none => rfl
    | some stub => exact absurd (schemeStub_some found).1 stubbed

/-- Exactly the texts whose dropped tail follows neither a `.git` nor a space have a normal form, and two spellings
    of one repository have the same one unless one of them is a scheme that lost its slashes. -/
theorem canon_repo_normal_iff {url other : String} (alike : Relation.EqvGen Respelled (chars url) (chars other)) :
    (NormalForm url ∧ NormalForm other ∧ canonRepo (some url) = canonRepo (some other)) ↔
      CleanTail (repoUrl (chars url)) ∧ CleanTail (repoUrl (chars other)) ∧
        schemeStub (chars url) = schemeStub (chars other) := by
  rw [normalForm_iff, normalForm_iff]
  refine and_congr_right fun clean => and_congr_right fun cleanOther => ?_
  have texts : canonRepo (some url) = canonRepo (some other) ↔
      dropTail (repoUrl (chars url)) = dropTail (repoUrl (chars other)) := by
    rw [← chars_canonRepo, ← chars_canonRepo]
    exact ⟨fun same => congrArg chars same, chars_injective⟩
  rw [texts]
  have same := alike_bareRepo alike
  have unstubbed : ['h', 't', 't', 'p', 's', ':'] ∉ stubs := by decide
  rcases canon_cases clean with ⟨none, canon⟩ | ⟨stub, member, found, canon, secure⟩
  · rcases canon_cases cleanOther with ⟨noneOther, canonOther⟩ | ⟨stub, member, found, canonOther, secure⟩
    · rw [canon, canonOther, none, noneOther]
      exact ⟨fun _ => rfl, fun _ => same⟩
    · rw [canon, canonOther, none, found, same, secure]
      exact ⟨fun wrong => absurd (wrong ▸ member) unstubbed, fun wrong => by cases wrong⟩
  · rcases canon_cases cleanOther with ⟨noneOther, canonOther⟩ | ⟨stubOther, _, foundOther, canonOther, _⟩
    · rw [canon, canonOther, noneOther, found, ← same, secure]
      exact ⟨fun wrong => absurd (wrong ▸ member) unstubbed, fun wrong => by cases wrong⟩
    · rw [canon, canonOther, found, foundOther, Option.some_inj]

theorem canon_repo_normal_iff_respelled :
    NormalForm "HTTP://Host/Repo.git" ∧ NormalForm " ssh://host/repo// " ∧
      canonRepo (some "HTTP://Host/Repo.git") = canonRepo (some " ssh://host/repo// ") := by
  have rest : Relation.EqvGen Respelled (chars "http://host/repo") (chars "HTTP://Host/Repo.git") :=
    .trans _ (chars "http://host/repo.git") _ (.rel _ _ (.git (chars "http://host/repo")))
      (.rel _ _ (.recase (by decide +kernel)))
  have scheme : Relation.EqvGen Respelled (chars "http://host/repo") (chars "ssh://host/repo") :=
    .rel _ _ (@Respelled.scheme (chars "http://") (chars "ssh://") (by decide +kernel) (by decide +kernel)
      (chars "host/repo"))
  have blank : ∀ c ∈ [' '], isSpace c = true := by
    intro c member
    rw [List.mem_singleton.mp member]
    rfl
  have spaced : Relation.EqvGen Respelled (chars "ssh://host/repo") (chars " ssh://host/repo// ") :=
    .trans _ (chars "ssh://host/repo/") _ (.rel _ _ (.slash _)) (.trans _ (chars "ssh://host/repo//") _
      (.rel _ _ (.slash _)) (.rel _ _ (.spaces _ blank blank)))
  refine (canon_repo_normal_iff ((rest.symm).trans _ _ _ (scheme.trans _ _ _ spaced))).mpr ⟨?_, ?_, by decide +kernel⟩
  · exact (cleanTail_iff _).mpr ⟨by decide +kernel, by decide +kernel⟩
  · exact (cleanTail_iff _).mpr ⟨by decide +kernel, by decide +kernel⟩

/-- A slash after `.git` keeps the `.git` in the canonical form, and with it a second identity. -/
theorem git_before_slash_stays :
    Relation.EqvGen Respelled (chars "https://host/repo") (chars "https://host/repo.git/") ∧
      canonRepo (some "https://host/repo") = "https://host/repo" ∧
      canonRepo (some "https://host/repo.git/") = "https://host/repo.git" ∧
      canonRepo (some "https://host/repo.git") = "https://host/repo" ∧ ¬ NormalForm "https://host/repo.git/" := by
  refine ⟨?_, by decide +kernel, by decide +kernel, by decide +kernel, ?_⟩
  · exact .trans _ (chars "https://host/repo.git") _ (.rel _ _ (.git (chars "https://host/repo"))) (.rel _ _ (.slash _))
  · intro normal
    exact normal.git (by decide +kernel)

end Spellings

end LedgerProof
