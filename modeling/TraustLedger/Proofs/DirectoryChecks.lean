import TraustLedger.Auth.Callers
import TraustLedger.Proofs.CanonicalTexts
import Mathlib.Data.List.TakeWhile

namespace LedgerProof

open Python Runs LedgerModel

structure Word (word : List Char) : Prop where
  nonempty : word ≠ []
  solid : ∀ c ∈ word, nonSpace c = true

def Spaced (rest : List Char) : Prop := ∀ c ∈ rest.head?, nonSpace c = false

/-- A result line for a person, with or without the mark of how the directory was asked. -/
def ResultFor (uid status line : List Char) : Prop :=
  Word uid ∧ Word status ∧ ∃ tail, line = chars "RESULT uid=" ++ uid ++ (chars " status=" ++ status ++ tail) ∧
    (tail = [] ∨ ∃ mark, Word mark ∧ tail = chars " auth=" ++ mark)

section Lines

variable {words line word rest uid status : List Char}

theorem takeWhile_word (solid : ∀ c ∈ word, nonSpace c = true) (spaced : Spaced rest) :
    (word ++ rest).takeWhile nonSpace = word ∧ (word ++ rest).dropWhile nonSpace = rest := by
  have stop : rest.takeWhile nonSpace = [] ∧ rest.dropWhile nonSpace = rest := by
    cases rest with
    | nil => exact ⟨rfl, rfl⟩
    | cons c rest =>
      have space : nonSpace c = false := spaced c rfl
      simp [space]
  rw [List.takeWhile_append_of_pos solid, List.dropWhile_append_of_pos solid, stop.1, stop.2, List.append_nil]
  exact ⟨rfl, rfl⟩

theorem spaced_dropWhile (text : List Char) : Spaced (text.dropWhile nonSpace) := by
  intro c head
  rw [Option.mem_def] at head
  have stopped := List.head?_dropWhile_not nonSpace text
  rw [head] at stopped
  simpa using stopped

theorem wordAfter_some_iff :
    wordAfter words line = some (word, rest) ↔ line = words ++ word ++ rest ∧ Word word ∧ Spaced rest := by
  unfold wordAfter
  constructor
  · intro found
    split at found
    · cases found
    · next after start =>
      split at found
      · cases found
      · next nonempty =>
        cases found
        have whole := List.isPrefixOf?_eq_some_iff_append_eq.mp start
        refine ⟨?_, ⟨nonempty, fun c member => List.mem_takeWhile_imp member⟩, spaced_dropWhile after⟩
        rw [List.append_assoc, List.takeWhile_append_dropWhile, whole]
  · rintro ⟨rfl, found, spaced⟩
    have start : List.isPrefixOf? words (words ++ word ++ rest) = some (word ++ rest) :=
      List.isPrefixOf?_eq_some_iff_append_eq.mpr (List.append_assoc words word rest).symm
    obtain ⟨taken, dropped⟩ := takeWhile_word found.solid spaced
    rw [start]
    simp only [taken, dropped, if_neg found.nonempty]

theorem spaced_chars {text : List Char} (start : text.head? = some ' ') : Spaced (text ++ rest) := by
  intro c head
  cases text with
  | nil => cases start
  | cons first text =>
    cases start
    cases head
    decide

theorem spaced_nil : Spaced [] := by
  intro c head
  cases head

theorem resultLine_iff : resultLine line = some (uid, status) ↔ ResultFor uid status line := by
  constructor
  · intro found
    unfold resultLine at found
    split at found
    · cases found
    · next name after first =>
      obtain ⟨start, named, _⟩ := wordAfter_some_iff.mp first
      split at found
      · cases found
      · next state second =>
        cases found
        obtain ⟨middle, stated, _⟩ := wordAfter_some_iff.mp second
        exact ⟨named, stated, [], by rw [start, middle], .inl rfl⟩
      · next state ending _ second =>
        obtain ⟨middle, stated, _⟩ := wordAfter_some_iff.mp second
        split at found
        · next mark third =>
          cases found
          obtain ⟨last, marked, _⟩ := wordAfter_some_iff.mp third
          exact ⟨named, stated, ending, by rw [start, middle], .inr ⟨mark, marked, by rw [last, List.append_nil]⟩⟩
        · cases found
  · rintro ⟨named, stated, tail, rfl, ending⟩
    have spaced : Spaced tail := by
      rcases ending with rfl | ⟨mark, _, rfl⟩
      · exact spaced_nil
      · exact spaced_chars (by decide)
    have first : wordAfter (chars "RESULT uid=") (chars "RESULT uid=" ++ uid ++ (chars " status=" ++ status ++ tail)) =
        some (uid, chars " status=" ++ status ++ tail) :=
      wordAfter_some_iff.mpr ⟨rfl, named, by rw [List.append_assoc]; exact spaced_chars (by decide)⟩
    have second : wordAfter (chars " status=") (chars " status=" ++ status ++ tail) = some (status, tail) :=
      wordAfter_some_iff.mpr ⟨rfl, stated, spaced⟩
    rw [resultLine, first]
    simp only [second]
    rcases ending with rfl | ⟨mark, marked, rfl⟩
    · rfl
    · have third : wordAfter (chars " auth=") (chars " auth=" ++ mark) = some (mark, []) :=
        wordAfter_some_iff.mpr ⟨by rw [List.append_nil], marked, spaced_nil⟩
      split
      · next absurdity => cases absurdity
      · next same =>
        rw [Option.some.injEq, Prod.mk.injEq] at same
        cases List.append_eq_nil_iff.mp same.2 |>.1
      · next same =>
        rw [Option.some.injEq, Prod.mk.injEq] at same
        obtain ⟨rfl, rfl⟩ := same
        rw [third]

end Lines

def printedLines (stdout : String) : List (List Char) := (chars stdout).splitOn '\n'

def FirstResult (stdout : String) (uid status : List Char) : Prop :=
  ∃ before line after, printedLines stdout = before ++ line :: after ∧ ResultFor uid status line ∧
    ∀ earlier ∈ before, ∀ other, ¬ ResultFor uid other earlier

section Reports

variable {uid status : List Char}

theorem lineStatus_iff {line : List Char} :
    ((resultLine line).bind fun found => if found.1 = uid then some found.2 else none) = some status ↔
      ResultFor uid status line := by
  rw [← resultLine_iff, Option.bind_eq_some_iff]
  constructor
  · rintro ⟨⟨name, state⟩, found, same⟩
    simp only [Option.ite_none_right_eq_some, Option.some.injEq] at same
    rw [found, same.1, same.2]
  · intro found
    exact ⟨(uid, status), found, if_pos rfl⟩

theorem reportedStatus_iff {stdout : String} :
    reportedStatus stdout uid = some status ↔ FirstResult stdout uid status := by
  unfold reportedStatus FirstResult printedLines
  rw [List.findSome?_eq_some_iff]
  simp only [lineStatus_iff]
  have unwritten : ∀ line, ((resultLine line).bind fun found => if found.1 = uid then some found.2 else none) = none ↔
      ∀ other, ¬ ResultFor uid other line := by
    intro line
    rw [Option.eq_none_iff_forall_ne_some]
    simp only [ne_eq, lineStatus_iff]
  simp only [unwritten]

end Reports

/-- The directory's command ran for the person, ended well, and its first result line for them has the status. -/
def Answers (directory : ScriptDirectory) (uid : String) (status : String) : Prop :=
  Word (chars uid) ∧ ∃ stdout, directory.run (directory.command ++ [uid]) = .ended 0 stdout ∧
    FirstResult stdout (chars uid) (chars status)

theorem word_iff {uid : String} : Word (chars uid) ↔ ¬ (uid = "" ∨ (chars uid).any isSpace = true) := by
  have empty : chars uid = [] ↔ uid = "" := by
    constructor
    · intro same
      exact chars_injective same
    · intro same
      rw [same]
      rfl
  rw [not_or, ← empty, Bool.not_eq_true, List.any_eq_false]
  constructor
  · intro word
    refine ⟨word.nonempty, ?_⟩
    intro c member
    simpa [nonSpace] using word.solid c member
  · rintro ⟨nonempty, solid⟩
    refine ⟨nonempty, ?_⟩
    intro c member
    simpa [nonSpace] using solid c member

theorem statusText_iff {reported : Option (List Char)} :
    (reported.map String.ofList).getD statusUnavailable = statusActive ↔ reported = some (chars statusActive) := by
  cases reported with
  | none => decide
  | some status =>
    simp only [Option.map_some, Option.getD_some, Option.some.injEq]
    constructor
    · intro same
      rw [← same, chars_ofList]
    · intro same
      rw [same]
      decide

theorem isActive_iff {directory : ScriptDirectory} {identity : String} :
    directory.isActive identity = statusActive ↔ Answers directory (strip identity) statusActive := by
  simp only [ScriptDirectory.isActive, Answers]
  by_cases spaced : strip identity = "" ∨ (chars (strip identity)).any isSpace = true
  · rw [if_pos spaced]
    constructor
    · intro same
      cases (by decide : "not_found" ≠ statusActive) same
    · rintro ⟨word, _⟩
      exact absurd (word_iff.mp word) (not_not_intro spaced)
  rw [if_neg spaced, and_iff_right (word_iff.mpr spaced)]
  cases directory.run (directory.command ++ [strip identity]) with
  | failed =>
    constructor
    · intro same
      cases (by decide : statusUnavailable ≠ statusActive) same
    · rintro ⟨stdout, ended, _⟩
      cases ended
  | ended code stdout =>
    by_cases failed : code ≠ 0
    · simp only [if_pos failed]
      constructor
      · intro same
        cases (by decide : statusUnavailable ≠ statusActive) same
      · rintro ⟨other, ended, _⟩
        cases ended
        exact absurd rfl failed
    · rw [not_not] at failed
      subst failed
      simp only [ne_eq, not_true_eq_false, if_false, CommandRun.ended.injEq, true_and, exists_eq_left']
      rw [← reportedStatus_iff]
      exact statusText_iff

theorem applyDirectory_ok {actor stamped : TokenActor} {directory : ScriptDirectory}
    (passed : applyDirectory actor (some directory) = .ok stamped) :
    ((actor.kind ≠ "human" ∨ actor.identity.getD "" = "") ∧ stamped = actor) ∨
      (actor.kind = "human" ∧ actor.identity.getD "" ≠ "" ∧
        Answers directory (strip (actor.identity.getD "")) statusActive ∧
        stamped = { actor with employeeStatus := some statusActive }) := by
  simp only [applyDirectory] at passed
  split at passed
  · next exempt =>
    cases passed
    exact .inl ⟨exempt, rfl⟩
  · next exempt =>
    rw [not_or, not_not] at exempt
    obtain ⟨_, active, rest⟩ := bind_ok_iff.mp passed
    rw [require_ok_iff] at active
    cases rest
    exact .inr ⟨exempt.1, exempt.2, isActive_iff.mp active, by rw [active]⟩

/-- The cross-check is exact and fails closed. A machine, or an actor without a name, passes as it is; a person
    passes only when the directory answers for exactly that name, and then carries the answer. -/
theorem directory_admits_iff (actor stamped : TokenActor) (directory : ScriptDirectory) :
    applyDirectory actor (some directory) = .ok stamped ↔
      ((actor.kind ≠ "human" ∨ actor.identity.getD "" = "") ∧ stamped = actor) ∨
      (actor.kind = "human" ∧ actor.identity.getD "" ≠ "" ∧
        Answers directory (strip (actor.identity.getD "")) statusActive ∧
        stamped = { actor with employeeStatus := some statusActive }) := by
  constructor
  · exact applyDirectory_ok
  · rintro (⟨exempt, rfl⟩ | ⟨human, named, answered, rfl⟩)
    · simp only [applyDirectory, if_pos exempt]
      rfl
    · have person : ¬ (actor.kind ≠ "human" ∨ actor.identity.getD "" = "") := by
        rw [not_or, not_not]
        exact ⟨human, named⟩
      have active := isActive_iff.mpr answered
      simp only [applyDirectory, if_neg person]
      refine bind_ok_iff.mpr ⟨(), require_ok_iff.mpr active, ?_⟩
      rw [active]
      rfl

-- another person's line does not count, and the name is trimmed before it is asked for
example : (⟨["check"], fun _ => .ended 0 "RESULT uid=bo status=active\nRESULT uid=ana status=left\n"⟩
    : ScriptDirectory).isActive " ana " = "left" := by decide +kernel

end LedgerProof
