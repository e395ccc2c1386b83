import TraustLedger.Library.Trimming
import TraustLedger.Paths

namespace LedgerProof

open LedgerModel Python Runs Trimming

section Grammar

structure FileLayerId (layerId : List Char) : Prop where
  component : parsePath layerId = ⟨[], [layerId]⟩
  charset : ∀ c ∈ layerId, isLayerIdChar c = true
  printable : ∀ c ∈ layerId, isControl c = false
  level : ¬ ['.', '.'] <:+: layerId

structure DbLayerId (layerId : List Char) : Prop where
  bounded : layerId.length ≤ 512
  printable : ∀ c ∈ layerId, isControl c = false
  leading : layerId.head? ≠ some ' '
  trailing : layerId.getLast? ≠ some ' '

/-- The path is a file of the data directory, with a lock of its own, and no other accepted id shares either. -/
structure OwnPath (dataDir layerId : String) (path : PurePath) : Prop where
  child : path.parent = parsePath (chars dataDir)
  named : path.name = chars layerId ++ layerFileSuffix
  locks : ∃ lock, lockPath path = .ok lock
  distinct : ∀ other otherPath, other ≠ layerId → storageKey .file dataDir other = .ok (.file otherPath) →
    otherPath ≠ path ∧ lockPath otherPath ≠ lockPath path

def InGrammar (dataDir layerId : String) : LayerKey → Prop
  | .row key => key = layerId ∧ DbLayerId (chars layerId)
  | .file path => FileLayerId (chars layerId) ∧ OwnPath dataDir layerId path

end Grammar

section Patterns

variable {text layerId : List Char} {c : Char}

theorem dropFinalNewline_of_ne (other : text.getLast? ≠ some '\n') : dropFinalNewline text = text := by
  rw [dropFinalNewline, if_neg other]

theorem mem_dropFinalNewline (member : c ∈ text) : c ∈ dropFinalNewline text ∨ c = '\n' := by
  unfold dropFinalNewline
  split
  · next last =>
    rw [← List.dropLast_append_getLast? '\n' last, List.mem_append, List.mem_singleton] at member
    exact member
  · exact Or.inl member

theorem hasDoubleDot_iff (text : List Char) : hasDoubleDot text = true ↔ ['.', '.'] <:+: text := by
  fun_induction hasDoubleDot text with
  | case1 rest => exact iff_of_true rfl ⟨[], rest, rfl⟩
  | case2 head rest other ih =>
    rw [ih, List.infix_cons_iff]
    refine ⟨Or.inr, ?_⟩
    rintro (start | inside)
    · rcases start with ⟨tail, same⟩
      cases same
      exact absurd rfl (other tail rfl)
    · exact inside
  | case3 => simp

theorem ascii_printable : ∀ n : Fin 128, isLayerIdChar (Char.ofNat n) = true → isControl (Char.ofNat n) = false := by
  decide +kernel

theorem isLayerIdChar_printable (named : isLayerIdChar c = true) : isControl c = false := by
  by_cases ascii : c.toNat < 128
  · have listed := ascii_printable ⟨c.toNat, ascii⟩
    rw [Char.ofNat_toNat] at listed
    exact listed named
  · simp only [isControl, Bool.or_eq_false_iff, decide_eq_false_iff_not, beq_eq_false_iff_ne]
    omega

theorem matchesLayerId_charset (accepted : matchesLayerId layerId = true) (member : c ∈ dropFinalNewline layerId) :
    isLayerIdChar c = true := by
  simp only [matchesLayerId, Bool.and_eq_true, List.all_eq_true] at accepted
  rcases accepted with ⟨-, charset⟩
  split at charset
  · next dotted =>
    rw [List.eq_cons_of_mem_head? dotted] at member
    rcases List.mem_cons.mp member with rfl | later
    · decide
    · exact charset c later
  · exact charset c member

theorem matchesLayerId_slash (accepted : matchesLayerId layerId = true) : '/' ∉ layerId := by
  intro member
  rcases mem_dropFinalNewline member with inside | same
  · exact absurd (matchesLayerId_charset accepted inside) (by decide)
  · exact absurd same (by decide)

theorem matchesLayerId_nonempty (accepted : matchesLayerId layerId = true) : layerId ≠ [] := by
  rintro rfl
  exact absurd accepted (by decide)

end Patterns

section Paths

variable {dataDir layerId : String} {path : PurePath} {key : LayerKey}

theorem parsePath_part {part : List Char} (whole : '/' ∉ part) (kept : isPathPart part = true) :
    parsePath part = ⟨[], [part]⟩ := by
  have relative : pathRoot part = [] := by
    unfold pathRoot
    split
    any_goals exact absurd List.mem_cons_self whole
    rfl
  rw [parsePath, relative, List.splitOn_eq_singleton whole, List.filter_cons_of_pos kept, List.filter_nil]

theorem join_part {part : List Char} (whole : '/' ∉ part) (kept : isPathPart part = true) :
    path.join part = ⟨path.root, path.parts ++ [part]⟩ := by
  rw [PurePath.join, parsePath_part whole kept]
  rfl

def childPath (dataDir layerId : String) : PurePath :=
  ⟨(parsePath (chars dataDir)).root, (parsePath (chars dataDir)).parts ++ [chars layerId ++ layerFileSuffix]⟩

theorem layerFilePath_eq (accepted : matchesLayerId (chars layerId) = true) :
    layerFilePath dataDir layerId = .ok (childPath dataDir layerId) := by
  have whole : '/' ∉ chars layerId ++ layerFileSuffix := by
    simp [layerFileSuffix, matchesLayerId_slash accepted]
  have kept : isPathPart (chars layerId ++ layerFileSuffix) = true := by
    have long : 4 < (chars layerId ++ layerFileSuffix).length := by simp [layerFileSuffix]
    rw [isPathPart, Bool.and_eq_true, bne_iff_ne, bne_iff_ne]
    constructor
    · intro same
      simp [same] at long
    · intro same
      simp [same] at long
  simp only [layerFilePath, require, if_pos accepted, join_part whole kept]
  rfl

theorem storageKey_file_ok (accepted : storageKey .file dataDir layerId = .ok key) :
    matchesLayerId (chars layerId) = true ∧ key = .file (childPath dataDir layerId) := by
  replace accepted := gate_passed accepted
  rcases bind_ok_iff.mp accepted with ⟨_, matched, resolved⟩
  rw [require_ok_iff] at matched
  rw [layerFilePath_eq matched] at resolved
  cases resolved
  exact ⟨matched, rfl⟩

theorem storageKey_db_ok (accepted : storageKey .db dataDir layerId = .ok key) :
    (chars layerId).length ≤ 512 ∧ matchesDbLayerId (chars layerId) = true ∧ key = .row layerId := by
  replace accepted := gate_passed accepted
  rcases bind_ok_iff.mp accepted with ⟨_, matched, resolved⟩
  rw [require_ok_iff] at matched
  cases resolved
  exact ⟨matched.1, matched.2, rfl⟩

theorem layerKey_ok_iff {backend : Backend} {layerId key : String} : layerKey backend layerId = .ok key ↔
    layerId ≠ "" ∧ namesLayer backend (chars layerId) = true ∧ key = layerId := by
  unfold layerKey
  constructor
  · intro resolved
    rcases bind_ok_iff.mp resolved with ⟨_, spelled, resolved⟩
    rcases bind_ok_iff.mp resolved with ⟨_, named, resolved⟩
    cases resolved
    exact ⟨require_ok_iff.mp spelled, require_ok_iff.mp named, rfl⟩
  · intro given
    rcases given with ⟨spelled, named, rfl⟩
    exact bind_ok_iff.mpr ⟨(), require_ok_iff.mpr spelled, bind_ok_iff.mpr ⟨(), require_ok_iff.mpr named, rfl⟩⟩

theorem layerKey_eq_storageKey (backend : Backend) (dataDir layerId : String) :
    layerKey backend layerId = (storageKey backend dataDir layerId).map fun _ => layerId := by
  unfold layerKey storageKey
  by_cases given : layerId ≠ ""
  · rw [require, if_pos given]
    cases backend with
    | db =>
      by_cases matched : (chars layerId).length ≤ dbLayerIdMaxLength ∧ matchesDbLayerId (chars layerId) = true
      · simp [namesLayer, matched, require, bind, Except.bind, Except.map, pure, Except.pure]
      · simp [namesLayer, matched, require, bind, Except.bind, Except.map]
    | file =>
      by_cases matched : matchesLayerId (chars layerId) = true
      · simp [namesLayer, matched, layerFilePath_eq matched, require, bind, Except.bind, Except.map, pure, Except.pure]
      · simp [namesLayer, matched, require, bind, Except.bind, Except.map]
  · rw [require, if_neg given]
    rfl

theorem childPath_name (dataDir layerId : String) :
    (childPath dataDir layerId).name = chars layerId ++ layerFileSuffix := by
  simp [PurePath.name, childPath]

theorem childPath_suffix (nonempty : chars layerId ≠ []) : (childPath dataDir layerId).suffix = layerFileSuffix := by
  have stem : (chars layerId ++ layerFileSuffix).rdropWhile (· != '.') = chars layerId ++ ['.'] :=
    rdropWhile_append_of_ne_nil (by decide)
  have long : 0 < (chars layerId).length := List.length_pos_iff.mpr nonempty
  rw [PurePath.suffix, childPath_name, stem, if_pos (by simpa [layerFileSuffix] using long)]
  simp [layerFileSuffix]

theorem lockPath_childPath (nonempty : chars layerId ≠ []) : lockPath (childPath dataDir layerId) =
    .ok ⟨(parsePath (chars dataDir)).root,
      (parsePath (chars dataDir)).parts ++ [chars layerId ++ layerFileSuffix ++ lockFileSuffix]⟩ := by
  have allowed : '/' ∉ layerFileSuffix ++ lockFileSuffix ∧
      (layerFileSuffix ++ lockFileSuffix = [] ∨ (layerFileSuffix ++ lockFileSuffix).head? = some '.') ∧
      layerFileSuffix ++ lockFileSuffix ≠ ['.'] := by decide
  have named : chars layerId ++ layerFileSuffix ≠ [] := by simp [nonempty]
  rw [lockPath, childPath_suffix nonempty, PurePath.withSuffix, childPath_name, childPath_suffix nonempty, require,
    if_pos allowed, require, if_pos named]
  simp [childPath, bind, Except.bind, pure, Except.pure]

theorem ownPath_childPath (accepted : matchesLayerId (chars layerId) = true) :
    OwnPath dataDir layerId (childPath dataDir layerId) := by
  have nonempty := matchesLayerId_nonempty accepted
  refine ⟨?_, childPath_name dataDir layerId, ⟨_, lockPath_childPath nonempty⟩, ?_⟩
  · simp [PurePath.parent, childPath]
  · intro other otherPath different resolved
    rcases storageKey_file_ok resolved with ⟨matched, same⟩
    cases same
    have apart : chars other ≠ chars layerId := fun same => different (chars_injective same)
    rw [lockPath_childPath nonempty, lockPath_childPath (matchesLayerId_nonempty matched)]
    constructor
    · intro same
      exact apart (by simpa [childPath] using same)
    · intro same
      exact apart (by simpa using same)

end Paths

section Languages

variable {layerId : List Char}

theorem fileLayerId_of_matches (accepted : matchesLayerId layerId = true) (ended : layerId.getLast? ≠ some '\n') :
    FileLayerId layerId := by
  have whole := dropFinalNewline_of_ne ended
  have charset : ∀ c ∈ layerId, isLayerIdChar c = true := by
    intro c member
    exact matchesLayerId_charset accepted (by rwa [whole])
  have level : hasDoubleDot layerId = false := by
    simp only [matchesLayerId, whole, Bool.and_eq_true, Bool.not_eq_true'] at accepted
    exact accepted.1.1.1
  refine ⟨parsePath_part (matchesLayerId_slash accepted) ?_, charset,
    fun c member => isLayerIdChar_printable (charset c member), ?_⟩
  · rw [isPathPart, Bool.and_eq_true, bne_iff_ne, bne_iff_ne]
    refine ⟨matchesLayerId_nonempty accepted, ?_⟩
    rintro rfl
    exact absurd accepted (by decide)
  · rw [← hasDoubleDot_iff, level]
    decide

theorem dbLayerId_of_matches (accepted : matchesDbLayerId layerId = true) (bounded : layerId.length ≤ 512)
    (ended : layerId.getLast? ≠ some '\n') : DbLayerId layerId := by
  have whole := dropFinalNewline_of_ne ended
  simp only [matchesDbLayerId, whole, Bool.and_eq_true, List.all_eq_true, Bool.not_eq_true'] at accepted
  rcases accepted with ⟨⟨first, last⟩, printable⟩
  refine ⟨bounded, printable, ?_, ?_⟩
  · intro space
    rw [space] at first
    exact absurd first (by decide)
  · intro space
    rw [space] at last
    exact absurd last (by decide)

end Languages

section Accepted

variable {backend : Backend} {dataDir layerId : String} {key : LayerKey}

/-- `$` also matches before a newline that ends the id, so an accepted id is in its grammar unless it ends in one. -/
theorem accepted_layer_id_iff (accepted : storageKey backend dataDir layerId = .ok key) :
    InGrammar dataDir layerId key ↔ (chars layerId).getLast? ≠ some '\n' := by
  cases backend with
  | db =>
    rcases storageKey_db_ok accepted with ⟨bounded, matched, rfl⟩
    constructor
    · rintro ⟨-, grammar⟩ last
      exact absurd (grammar.printable '\n' (List.mem_of_getLast? last)) (by decide)
    · intro ended
      exact ⟨rfl, dbLayerId_of_matches matched bounded ended⟩
  | file =>
    rcases storageKey_file_ok accepted with ⟨matched, rfl⟩
    constructor
    · rintro ⟨grammar, -⟩ last
      exact absurd (grammar.printable '\n' (List.mem_of_getLast? last)) (by decide)
    · intro ended
      exact ⟨fileLayerId_of_matches matched ended, ownPath_childPath matched⟩

theorem accepted_layer_id_dotted :
    storageKey .file "/data" ".github" = .ok (.file (childPath "/data" ".github")) ∧
      InGrammar "/data" ".github" (.file (childPath "/data" ".github")) ∧
      storageKey .db "" "corpus:layer:a b" = .ok (.row "corpus:layer:a b") ∧
      InGrammar "" "corpus:layer:a b" (.row "corpus:layer:a b") := by
  have named : storageKey .file "/data" ".github" = .ok (.file (childPath "/data" ".github")) := by decide +kernel
  have bound : storageKey .db "" "corpus:layer:a b" = .ok (.row "corpus:layer:a b") := by decide +kernel
  exact ⟨named, (accepted_layer_id_iff named).mpr (by decide +kernel), bound,
    (accepted_layer_id_iff bound).mpr (by decide +kernel)⟩

/-- Both patterns take an id with a newline after it. -/
theorem newline_layer_id_accepted :
    (∃ key, storageKey .file "/data" "a\n" = .ok key ∧ ¬ InGrammar "/data" "a\n" key) ∧
      ∃ key, storageKey .db "/data" "a\n" = .ok key ∧ ¬ InGrammar "/data" "a\n" key := by
  refine ⟨⟨.file (childPath "/data" "a\n"), by decide +kernel, ?_⟩, ⟨.row "a\n", by decide +kernel, ?_⟩⟩
  · rintro ⟨grammar, -⟩
    exact absurd (grammar.printable '\n' (by decide +kernel)) (by decide)
  · rintro ⟨-, grammar⟩
    exact absurd (grammar.printable '\n' (by decide +kernel)) (by decide)

end Accepted

end LedgerProof
