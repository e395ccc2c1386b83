import Mathlib.Data.List.Dedup
import Mathlib.Logic.Function.Basic
import TraustLedger.Artifacts
import TraustLedger.Library.OrderedDicts
import TraustLedger.Library.Sha256

namespace LedgerProof

open Hashing Python Runs Sha256 LedgerModel

variable {H : HashFunction} {directory : Listing} {layer other : String} {entry : DirEntry}

def layerNames (directory : Listing) : List String :=
  (directory.entries.map fun entry => entry.name).filter isLayerName

def rewriteArtifact (layer : String) (bytes : String → Option Bytes) (entry : DirEntry) : Option DirEntry :=
  if isArtifactOf layer entry then (bytes entry.name).map fun content => { entry with content := content }
  else some entry

theorem rewriteArtifact_name {bytes : String → Option Bytes} {result : DirEntry}
    (kept : rewriteArtifact layer bytes entry = some result) :
    result.name = entry.name ∧ result.isFile = entry.isFile := by
  unfold rewriteArtifact at kept
  split at kept
  · rcases Option.map_eq_some_iff.mp kept with ⟨content, -, rfl⟩
    exact ⟨rfl, rfl⟩
  · cases kept
    exact ⟨rfl, rfl⟩

theorem names_sublist (layer : String) (bytes : String → Option Bytes) (entries : List DirEntry) :
    ((entries.filterMap (rewriteArtifact layer bytes)).map fun entry => entry.name).Sublist
      (entries.map fun entry => entry.name) := by
  induction entries with
  | nil => exact List.Sublist.slnil
  | cons entry entries ih =>
    cases kept : rewriteArtifact layer bytes entry with
    | none =>
      rw [List.filterMap_cons_none kept, List.map_cons]
      exact ih.cons _
    | some result =>
      rw [List.filterMap_cons_some kept, List.map_cons, List.map_cons, (rewriteArtifact_name kept).1]
      exact ih.cons_cons _

def restoredArtifacts (directory : Listing) (layer : String) (restored : Listing) : List DirEntry :=
  restored.entries.filter fun entry =>
    isArtifactOf layer entry && !(directory.entries.map fun held => held.name).contains entry.name

theorem repaired_distinct (directory : Listing) (layer : String) (bytes : String → Option Bytes) (restored : Listing) :
    ((directory.entries.filterMap (rewriteArtifact layer bytes) ++
      restoredArtifacts directory layer restored).map fun entry => entry.name).Nodup := by
  have kept := names_sublist layer bytes directory.entries
  rw [List.map_append]
  refine List.Nodup.append (directory.distinct.sublist kept) ?_ ?_
  · exact restored.distinct.sublist (List.filter_sublist.map _)
  · intro name here there
    obtain ⟨entry, member, rfl⟩ := List.mem_map.mp there
    obtain ⟨-, fresh⟩ := Bool.and_eq_true_iff.mp (List.mem_filter.mp member).2
    rw [Bool.not_eq_true', List.contains_eq_mem, decide_eq_false_iff_not] at fresh
    exact fresh (kept.subset here)

/-- The directory after the artifacts of one layer were written again, removed or brought back. -/
def repaired (directory : Listing) (layer : String) (bytes : String → Option Bytes) (restored : Listing) : Listing where
  entries := directory.entries.filterMap (rewriteArtifact layer bytes) ++ restoredArtifacts directory layer restored
  distinct := repaired_distinct directory layer bytes restored

/-- No file is claimed by two layers, and no layer is reported for what was done to the artifacts of another. -/
structure SplitsCleanly (H : HashFunction) (directory : Listing) : Prop where
  owned : ∀ layer ∈ layerNames directory, ∀ other ∈ layerNames directory, ∀ entry,
    entry ∈ siblingArtifacts directory layer → entry ∈ siblingArtifacts directory other → layer = other
  separate : ∀ layer ∈ layerNames directory, ∀ other ∈ layerNames directory, layer ≠ other →
    ∀ (metadata : String → Dict) (bytes : String → Option Bytes) (restored : Listing),
    checkArtifactDigests H (metadata other) directory other = .ok [] →
    checkArtifactDigests H
      (Function.update metadata layer
        (stampArtifactDigests H (metadata layer) (repaired directory layer bytes restored) layer).1 other)
      (repaired directory layer bytes restored) other = .ok []

/-- A layer whose base another layer's base goes on from, after a dash, has no artifact. -/
def Unnested (directory : Listing) : Prop :=
  ∀ layer ∈ layerNames directory, ∀ other ∈ layerNames directory, baseOf layer ++ ['-'] <+: baseOf other →
    siblingArtifacts directory layer = []

section Names

theorem isArtifactOf_iff : isArtifactOf layer entry = true ↔
    entry.isFile = true ∧ baseOf layer ++ ['-'] <+: chars entry.name ∧ isLayerName entry.name = false := by
  rw [isArtifactOf, Bool.and_eq_true, Bool.and_eq_true, Bool.not_eq_true', List.isPrefixOf_iff_prefix, and_assoc]

theorem mem_siblingArtifacts (named : isLayerName layer = true) :
    entry ∈ siblingArtifacts directory layer ↔ entry ∈ directory.entries ∧ isArtifactOf layer entry = true := by
  rw [siblingArtifacts, if_pos named, List.mem_insertionSort, List.mem_filter]

theorem isLayerName_of_mem (member : layer ∈ layerNames directory) : isLayerName layer = true :=
  (List.mem_filter.mp member).2

theorem base_append (named : isLayerName layer = true) : chars layer = baseOf layer ++ layerNameSuffix := by
  rcases List.isSuffixOf_iff_suffix.mp named with ⟨base, same⟩
  rw [baseOf, ← same]
  simp

theorem base_injective (named : isLayerName layer = true) (alsoNamed : isLayerName other = true)
    (same : baseOf layer = baseOf other) : layer = other := by
  apply chars_injective
  rw [base_append named, base_append alsoNamed, same]

theorem nested_of_shared (named : isLayerName layer = true) (alsoNamed : isLayerName other = true)
    (apart : layer ≠ other) {name : List Char} (here : baseOf layer ++ ['-'] <+: name)
    (there : baseOf other ++ ['-'] <+: name) :
    baseOf layer ++ ['-'] <+: baseOf other ∨ baseOf other ++ ['-'] <+: baseOf layer := by
  have differ : ∀ {left right : List Char}, left ++ ['-'] = right ++ ['-'] → left = right :=
    fun same => List.append_cancel_right same
  rcases List.prefix_or_prefix_of_prefix here there with shorter | longer
  · rcases List.prefix_concat_iff.mp shorter with same | inside
    · exact absurd (base_injective named alsoNamed (differ same)) apart
    · exact Or.inl inside
  · rcases List.prefix_concat_iff.mp longer with same | inside
    · exact absurd (base_injective named alsoNamed (differ same).symm) apart
    · exact Or.inr inside

theorem artifacts_nested (named : isLayerName layer = true) (alsoNamed : isLayerName other = true)
    (nested : baseOf layer ++ ['-'] <+: baseOf other) (none : siblingArtifacts directory layer = []) :
    siblingArtifacts directory other = [] := by
  rw [List.eq_nil_iff_forall_not_mem] at none ⊢
  intro entry claimed
  obtain ⟨member, artifact⟩ := (mem_siblingArtifacts alsoNamed).mp claimed
  obtain ⟨file, longer, plain⟩ := isArtifactOf_iff.mp artifact
  have shorter : baseOf layer ++ ['-'] <+: chars entry.name := nested.trans ((List.prefix_append _ _).trans longer)
  exact none entry ((mem_siblingArtifacts named).mpr ⟨member, isArtifactOf_iff.mpr ⟨file, shorter, plain⟩⟩)

theorem Unnested.apart (unnested : Unnested directory) (known : layer ∈ layerNames directory)
    (alsoKnown : other ∈ layerNames directory) (differ : layer ≠ other) :
    (∀ entry, isArtifactOf layer entry = true → isArtifactOf other entry = false) ∨
      siblingArtifacts directory other = [] := by
  have named := isLayerName_of_mem known
  have alsoNamed := isLayerName_of_mem alsoKnown
  by_cases nested : baseOf layer ++ ['-'] <+: baseOf other
  · exact Or.inr (artifacts_nested named alsoNamed nested (unnested layer known other alsoKnown nested))
  by_cases inside : baseOf other ++ ['-'] <+: baseOf layer
  · exact Or.inr (unnested other alsoKnown layer known inside)
  left
  intro entry claimed
  by_contra shared
  obtain ⟨-, here, -⟩ := isArtifactOf_iff.mp claimed
  obtain ⟨-, there, -⟩ := isArtifactOf_iff.mp ((Bool.not_eq_false _).mp shared)
  exact (nested_of_shared named alsoNamed differ here there).elim nested inside

theorem Unnested.owned (unnested : Unnested directory) (known : layer ∈ layerNames directory)
    (alsoKnown : other ∈ layerNames directory) (claimed : entry ∈ siblingArtifacts directory layer)
    (alsoClaimed : entry ∈ siblingArtifacts directory other) : layer = other := by
  by_contra differ
  obtain ⟨-, artifact⟩ := (mem_siblingArtifacts (isLayerName_of_mem known)).mp claimed
  obtain ⟨-, alsoArtifact⟩ := (mem_siblingArtifacts (isLayerName_of_mem alsoKnown)).mp alsoClaimed
  rcases unnested.apart known alsoKnown differ with apart | none
  · exact absurd alsoArtifact (by simp [apart entry artifact])
  · rw [none] at alsoClaimed
    exact List.not_mem_nil alsoClaimed

end Names

section Repairs

variable {bytes : String → Option Bytes} {restored : Listing}

theorem isArtifactOf_rewrite {result : DirEntry} (kept : rewriteArtifact layer bytes entry = some result)
    (other : String) :
    isArtifactOf other result = isArtifactOf other entry := by
  rcases rewriteArtifact_name kept with ⟨name, file⟩
  rw [isArtifactOf, isArtifactOf, name, file]

theorem filter_rewrite (entries : List DirEntry)
    (apart : ∀ entry, isArtifactOf layer entry = true → isArtifactOf other entry = false) :
    (entries.filterMap (rewriteArtifact layer bytes)).filter (isArtifactOf other) =
      entries.filter (isArtifactOf other) := by
  induction entries with
  | nil => rfl
  | cons entry entries ih =>
    cases claimed : isArtifactOf layer entry with
    | false =>
      have kept : rewriteArtifact layer bytes entry = some entry := by simp [rewriteArtifact, claimed]
      rw [List.filterMap_cons_some kept, List.filter_cons, List.filter_cons, ih]
    | true =>
      have foreign : ¬ isArtifactOf other entry = true := by simp [apart entry claimed]
      rw [List.filter_cons_of_neg foreign]
      cases kept : rewriteArtifact layer bytes entry with
      | none =>
        rw [List.filterMap_cons_none kept]
        exact ih
      | some result =>
        rw [List.filterMap_cons_some kept, List.filter_cons_of_neg (by rwa [isArtifactOf_rewrite kept])]
        exact ih

theorem siblingArtifacts_repaired
    (apart : ∀ entry, isArtifactOf layer entry = true → isArtifactOf other entry = false) :
    siblingArtifacts (repaired directory layer bytes restored) other = siblingArtifacts directory other := by
  have foreign : (restoredArtifacts directory layer restored).filter (isArtifactOf other) = [] := by
    rw [List.filter_eq_nil_iff]
    intro entry member
    obtain ⟨artifact, -⟩ := Bool.and_eq_true_iff.mp (List.mem_filter.mp member).2
    simp [apart entry artifact]
  unfold siblingArtifacts
  rw [repaired, List.filter_append, filter_rewrite directory.entries apart, foreign, List.append_nil]

theorem mem_repaired (member : entry ∈ restored.entries) (artifact : isArtifactOf layer entry = true)
    (fresh : entry.name ∉ directory.entries.map fun held => held.name) :
    entry ∈ (repaired directory layer bytes restored).entries := by
  apply List.mem_append_right
  rw [restoredArtifacts, List.mem_filter]
  exact ⟨member, by simpa [artifact] using fresh⟩

end Repairs

section Checks

variable {metadata : Dict} {recorded : Dict}

theorem checkArtifactDigests_congr {after : Listing} (metadata : Dict)
    (same : siblingArtifacts after layer = siblingArtifacts directory layer) :
    checkArtifactDigests H metadata after layer = checkArtifactDigests H metadata directory layer := by
  unfold checkArtifactDigests
  rw [same]

theorem checkArtifactDigests_alone (none : siblingArtifacts directory layer = [])
    (clean : checkArtifactDigests H metadata directory layer = .ok []) (after : Listing) :
    checkArtifactDigests H metadata after layer = .ok [] := by
  unfold checkArtifactDigests at clean ⊢
  cases held : metadata.get "artifact_digests" with
  | obj recorded =>
    simp only [held, none] at clean ⊢
    cases recorded with
    | nil => rfl
    | cons first rest =>
      have missing : first.1 ∈ missingNames (first :: rest) [] := by simp [missingNames]
      simp only [List.isEmpty_cons, Bool.false_eq_true, if_false, List.mapM_nil, pure_bind, List.flatten_nil,
        List.nil_append] at clean
      have nothing := Except.ok.inj clean
      rw [List.map_eq_nil_iff] at nothing
      rw [nothing] at missing
      cases missing
  | _ => simpa only [held] using clean

theorem checkArtifactDigests_unrecorded (held : metadata.get "artifact_digests" = .obj recorded)
    (some : recorded ≠ []) (claimed : entry ∈ siblingArtifacts directory layer)
    (absent : recorded.get entry.name = .null) : checkArtifactDigests H metadata directory layer ≠ .ok [] := by
  intro clean
  unfold checkArtifactDigests at clean
  simp only [held, List.isEmpty_iff, some, if_false] at clean
  obtain ⟨findings, checked, clean⟩ := bind_ok_iff.mp clean
  obtain ⟨messages, member, finding⟩ := mapM_of_mem checked claimed
  rw [checkSibling, absent] at finding
  cases finding
  have silent := (List.append_eq_nil_iff.mp (Except.ok.inj clean)).1
  exact absurd (List.flatten_eq_nil_iff.mp silent _ member) (by simp)

theorem lookup_names {entries : List DirEntry} (value : DirEntry → Json)
    (apart : ∀ held ∈ entries, held.name = entry.name → held = entry) (member : entry ∈ entries) :
    (entries.map fun held => (held.name, value held)).lookup entry.name = some (value entry) := by
  induction entries with
  | nil => cases member
  | cons head rest ih =>
    rw [List.forall_mem_cons] at apart
    rw [List.map_cons, Dict.lookup_cons_ite]
    by_cases same : entry.name = head.name
    · rw [if_pos same, apart.1 same.symm]
    · rw [if_neg same]
      apply ih apart.2
      rcases List.mem_cons.mp member with rfl | later
      · exact absurd rfl same
      · exact later

theorem get_freshDigests (named : isLayerName layer = true) (claimed : entry ∈ siblingArtifacts directory layer) :
    (freshDigests H directory layer).get entry.name = .str (reportSha256 H entry) := by
  apply Dict.get_eq_of_lookup
  rw [freshDigests, Dict.lookup_ofList]
  apply lookup_names (fun held => .str (reportSha256 H held)) _ claimed
  intro held alsoClaimed same
  exact List.inj_on_of_nodup_map directory.distinct ((mem_siblingArtifacts named).mp alsoClaimed).1
    ((mem_siblingArtifacts named).mp claimed).1 same

theorem checkArtifactDigests_fresh (named : isLayerName layer = true)
    (held : metadata.get "artifact_digests" = .obj (freshDigests H directory layer)) :
    checkArtifactDigests H metadata directory layer = .ok [] := by
  have sound : ∀ entry ∈ siblingArtifacts directory layer, ∃ messages,
      checkSibling H (freshDigests H directory layer) entry = .ok messages ∧ messages = [] := by
    intro entry claimed
    refine ⟨[], ?_, rfl⟩
    simp [checkSibling, get_freshDigests named claimed, Json.pyEq_self, pure, Except.pure]
  obtain ⟨findings, checked, silent⟩ := mapM_ok sound
  have complete : missingNames (freshDigests H directory layer) (siblingArtifacts directory layer) = [] := by
    have present : ∀ name ∈ (freshDigests H directory layer).map fun entry => entry.1,
        name ∈ (siblingArtifacts directory layer).map fun entry => entry.name := by
      intro name known
      obtain ⟨pair, member, rfl⟩ := List.mem_map.mp known
      obtain ⟨entry, claimed, rfl⟩ := List.mem_map.mp (Dict.mem_ofList member)
      exact List.mem_map_of_mem claimed
    have nothing : ((freshDigests H directory layer).map fun entry => entry.1).filter
        (fun name => !((siblingArtifacts directory layer).map fun entry => entry.name).contains name) = [] := by
      rw [List.filter_eq_nil_iff]
      intro name known
      simpa using present name known
    rw [missingNames, nothing]
    rfl
  unfold checkArtifactDigests
  rw [held]
  simp only
  split
  · rfl
  · rw [checked, complete]
    refine bind_ok_iff.mpr ⟨findings, rfl, ?_⟩
    rw [List.flatten_eq_nil_iff.mpr silent]
    rfl

end Checks

section Spare

def spareName (directory : Listing) (base : List Char) : String :=
  String.ofList (base ++ ['-'] ++ (directory.entries.map fun entry => chars entry.name).flatten ++ ['x'])

theorem spareName_prefix (base : List Char) : base ++ ['-'] <+: chars (spareName directory base) := by
  rw [spareName, chars_ofList, List.append_assoc]
  exact List.prefix_append _ _

theorem spareName_fresh (base : List Char) :
    spareName directory base ∉ directory.entries.map fun entry => entry.name := by
  intro member
  obtain ⟨entry, held, same⟩ := List.mem_map.mp member
  have within := (List.sublist_flatten_of_mem
    (List.mem_map_of_mem (f := fun entry : DirEntry => chars entry.name) held)).length_le
  have length := congrArg (fun name => (chars name).length) same
  simp only [spareName, chars_ofList, List.length_append, List.length_singleton] at length
  omega

theorem spareName_plain (base : List Char) : isLayerName (spareName directory base) = false := by
  by_contra named
  obtain ⟨before, same⟩ := List.isSuffixOf_iff_suffix.mp ((Bool.not_eq_false _).mp named)
  have ending := congrArg List.getLast? same
  have last : layerNameSuffix.getLast? = some 'n' := by decide
  rw [spareName, chars_ofList, List.getLast?_concat, List.getLast?_append, last] at ending
  cases ending

end Spare

/-- A layer that has an artifact and whose base another layer's base goes on from is reported when the other's missing
    artifact is brought back. -/
theorem Unnested.of_separate (splits : SplitsCleanly H directory) : Unnested directory := by
  intro layer known other alsoKnown nested
  by_contra some
  have named := isLayerName_of_mem known
  have differ : other ≠ layer := by
    rintro rfl
    have short := nested.length_le
    rw [List.length_append, List.length_singleton] at short
    omega
  let spare : DirEntry := ⟨spareName directory (baseOf other), true, []⟩
  have longer : baseOf other ++ ['-'] <+: chars spare.name := spareName_prefix (baseOf other)
  have shorter : baseOf layer ++ ['-'] <+: chars spare.name := nested.trans ((List.prefix_append _ _).trans longer)
  have plain : isLayerName spare.name = false := spareName_plain (baseOf other)
  have fresh : spare.name ∉ directory.entries.map fun held => held.name := spareName_fresh (baseOf other)
  let restored : Listing := ⟨[spare], List.nodup_singleton _⟩
  let recorded : Dict := freshDigests H directory layer
  have reported := splits.separate other alsoKnown layer known differ
    (fun _ => [("artifact_digests", .obj recorded)]) (fun _ => none) restored
    (checkArtifactDigests_fresh named rfl)
  rw [Function.update_of_ne differ.symm] at reported
  have absent : recorded.get spare.name = .null := by
    rw [Dict.get, Dict.lookup_eq_none]
    · rfl
    intro pair member same
    obtain ⟨entry, claimed, rfl⟩ := List.mem_map.mp (Dict.mem_ofList member)
    exact fresh (same ▸ List.mem_map_of_mem ((mem_siblingArtifacts named).mp claimed).1)
  have nonempty : recorded ≠ [] := by
    intro empty
    obtain ⟨entry, claimed⟩ := List.exists_mem_of_ne_nil _ some
    have digest := @get_freshDigests H directory layer entry named claimed
    rw [show freshDigests H directory layer = [] from empty] at digest
    cases digest
  have claimed : spare ∈ siblingArtifacts (repaired directory other (fun _ => none) restored) layer := by
    rw [mem_siblingArtifacts named]
    refine ⟨mem_repaired (List.mem_singleton_self _) ?_ fresh, isArtifactOf_iff.mpr ⟨rfl, shorter, plain⟩⟩
    exact isArtifactOf_iff.mpr ⟨rfl, longer, plain⟩
  exact checkArtifactDigests_unrecorded rfl nonempty claimed absent reported

/-- Ownership goes by the base and a dash, so a base that goes on from another claims out of the other's files. -/
theorem splits_cleanly_iff (H : HashFunction) (directory : Listing) :
    SplitsCleanly H directory ↔ Unnested directory := by
  constructor
  · exact Unnested.of_separate
  · intro unnested
    refine ⟨fun layer known other alsoKnown entry => unnested.owned known alsoKnown, ?_⟩
    intro layer known other alsoKnown differ metadata bytes restored clean
    rw [Function.update_of_ne differ.symm]
    rcases unnested.apart known alsoKnown differ with apart | none
    · rw [checkArtifactDigests_congr (metadata other) (siblingArtifacts_repaired apart)]
      exact clean
    · exact checkArtifactDigests_alone none clean _

def regularFile (name : String) (content : Bytes) : DirEntry := ⟨name, true, content⟩

def nestedBases : Listing where
  entries := [regularFile "a-findings-layer.json" [], regularFile "a-b-findings-layer.json" [],
    regularFile "a-b-report.json" [1]]
  distinct := by decide

def recordedDigests (layer : String) : Dict :=
  if layer = "a-b-findings-layer.json" then (stampArtifactDigests sha256 [] nestedBases layer).1 else []

/-- The file is claimed by both layers, and when it is repaired for the first the second is reported. -/
theorem nested_bases_share_artifacts : ¬ SplitsCleanly sha256 nestedBases ∧
    checkArtifactDigests sha256 (recordedDigests "a-b-findings-layer.json") nestedBases "a-b-findings-layer.json" =
      .ok [] ∧
    checkArtifactDigests sha256 (recordedDigests "a-b-findings-layer.json")
      (repaired nestedBases "a-findings-layer.json" (fun _ => some [2]) ⟨[], List.nodup_nil⟩)
      "a-b-findings-layer.json" ≠ .ok [] := by
  refine ⟨fun splits => ?_, by decide +kernel, by decide +kernel⟩
  have same := splits.owned "a-findings-layer.json" (by decide +kernel) "a-b-findings-layer.json" (by decide +kernel)
    (regularFile "a-b-report.json" [1]) (by decide +kernel) (by decide +kernel)
  exact absurd same (by decide)

end LedgerProof
