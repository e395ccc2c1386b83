import TraustLedger.Library.Sha256
import TraustLedger.Library.StableSort
import TraustLedger.Manifests

namespace LedgerProof

open Hashing Python Runs Sha256 LedgerModel

variable {env : ManifestEnv} {tree : SourceTree} {selection : Selection} {lines : List String}

def Unlinked (tree : SourceTree) (place : List (List Char)) : Prop :=
  ∀ start, start <+: place → start ≠ [] → tree.entry start ≠ some .symlink

structure Holds (env : ManifestEnv) (tree : SourceTree) (selection : Selection) (payload : Bytes) (fields : Dict) :
    Prop where
  unlinked : Unlinked tree selection.place
  readable : tree.read selection.place = .ok payload
  digest : hexDigest env.hash payload = selection.digest
  decoded : env.decode payload = .ok (.obj fields)

def Delivers (env : ManifestEnv) (tree : SourceTree) (selection : Selection) : Prop :=
  ∃ payload fields, Holds env tree selection payload fields

def OneLayer (env : ManifestEnv) (tree : SourceTree) (left right : Selection) : Prop :=
  left.place = right.place → Delivers env tree left → Delivers env tree right → left.layerId = right.layerId

/-- What the document of a result must be: the content of a regular file under the source directory, reached through
    no link, with the digest of the record. -/
def FromFile (env : ManifestEnv) (tree : SourceTree) (selection : Selection) (result : SourceLayer) : Prop :=
  ∃ content fields, tree.entry selection.place = some (.file content) ∧ Unlinked tree selection.place ∧
    ['.', '.'] ∉ selection.place ∧ hexDigest env.hash content = selection.digest ∧
    env.decode content = .ok (.obj fields) ∧ result.document.fields = Dict.ofList fields

def isSelecting (record : Dict) : Bool :=
  record.get "namespace" = .str "traust_ledger" && (record.get "decision" = .str "selected" ||
    record.get "decision" = .str "delegated")

def selectingRecord (env : ManifestEnv) (line : String) : Option Dict :=
  match env.loads line with
  | .ok (.obj fields) => if isSelecting fields then some fields else none
  | _ => none

def selectingRecords (env : ManifestEnv) (lines : List String) : List Dict := lines.filterMap (selectingRecord env)

def selections (env : ManifestEnv) (lines : List String) : List Selection :=
  (selectingRecords env lines).filterMap selectionOf

structure ConfinedOneToOne (env : ManifestEnv) (tree : SourceTree) (lines : List String) (results : List SourceLayer) :
    Prop where
  complete : (selectingRecords env lines).map (fun record => record.get "layer_id") =
    results.map fun result => .str result.layerId
  confined : List.Forall₂ (fun selection result => result.error = none → FromFile env tree selection result)
    (selections env lines) results
  oneToOne : ∀ here ∈ (selections env lines).zip results, ∀ there ∈ (selections env lines).zip results,
    here.2.error = none → there.2.error = none → here.1.place = there.1.place → here.2.layerId = there.2.layerId

/-- The operating system answers what is asked of it about the path: whether each part down to the first link is one
    and, where none is, what the path resolves to. -/
def Lookable (tree : SourceTree) (place : List (List Char)) : Prop :=
  ∃ linked, tree.meetsSymlink [] place = .ok linked ∧
    (linked = false → ∃ path, tree.resolve ⟨tree.root.root, tree.root.parts ++ place⟩ = .ok path)

/-- Every selection names a path the system can look at, none a pipe or a device that holds a document, and no two
    spell one place that holds one. -/
structure OneSpelling (env : ManifestEnv) (tree : SourceTree) (selected : List Selection) : Prop where
  looked : ∀ selection ∈ selected, Lookable tree selection.place
  regular : ∀ selection ∈ selected, ∀ payload fields, Holds env tree selection payload fields →
    tree.entry selection.place ≠ some (.special (some payload))
  spelled : selected.Pairwise fun left right => left.place = right.place →
    ¬ (Delivers env tree left ∧ Delivers env tree right)

section Sources

theorem meetsSymlink_iff {current parts : List (List Char)} {linked : Bool}
    (walked : tree.meetsSymlink current parts = .ok linked) :
    linked = false ↔ ∀ start, start <+: parts → start ≠ [] → tree.entry (current ++ start) ≠ some .symlink := by
  induction parts generalizing current with
  | nil =>
    cases walked
    refine iff_of_true rfl ?_
    intro start begins nonempty
    exact absurd (List.prefix_nil.mp begins) nonempty
  | cons part parts ih =>
    obtain ⟨answer, asked, walked⟩ := bind_ok_iff.mp walked
    have link := tree.isSymlinkEntry _ _ asked
    cases answer with
    | true =>
      cases walked
      refine iff_of_false (by simp) fun clear => ?_
      exact clear [part] (by simp) (by simp) (link.mp rfl)
    | false =>
      rw [ih walked]
      constructor
      · intro clear start begins nonempty
        cases start with
        | nil => exact absurd rfl nonempty
        | cons first start =>
          obtain ⟨rfl, rest⟩ := List.cons_prefix_cons.mp begins
          cases start with
          | nil => exact fun linked => absurd (link.mpr linked) (by simp)
          | cons second start => simpa using clear (second :: start) rest (by simp)
      · intro clear start begins nonempty
        simpa using clear (part :: start) (List.cons_prefix_cons.mpr ⟨rfl, begins⟩) (by simp)

theorem selectionOf_ok {record : Dict} (selected : selectionOf record = some selection) :
    record.get "layer_id" = .str selection.layerId ∧ isSourceFile (chars selection.sourceFile) = true := by
  unfold selectionOf at selected
  split at selected
  · next relative layerId digest owner file id sum owned =>
    rcases Option.ite_none_right_eq_some.mp selected with ⟨⟨-, -, sound, -⟩, same⟩
    cases same
    exact ⟨id, sound⟩
  · cases selected

theorem sourcePath_eq (sound : isSourceFile (chars selection.sourceFile) = true) :
    ManifestEnv.sourcePath tree selection = ⟨tree.root.root, tree.root.parts ++ selection.place⟩ := by
  have relative : (parsePath (chars selection.sourceFile)).isAbsolute = false := by
    simp only [isSourceFile, Bool.and_eq_true, Bool.not_eq_true'] at sound
    exact sound.1.1.1.2
  rw [ManifestEnv.sourcePath, PurePath.join, if_neg (by simp [relative]), Selection.place]

theorem place_level (sound : isSourceFile (chars selection.sourceFile) = true) : ['.', '.'] ∉ selection.place := by
  simp only [isSourceFile, Bool.and_eq_true, Bool.not_eq_true'] at sound
  intro member
  have level := sound.1.1.2
  rw [List.contains_eq_mem, decide_eq_false_iff_not] at level
  exact level member

theorem document_ok {payload : Bytes} {source : String} {document : Document} :
    env.document payload source = .ok document ↔
      ∃ fields, env.decode payload = .ok (.obj fields) ∧ document.fields = Dict.ofList fields := by
  unfold ManifestEnv.document
  constructor
  · intro opened
    split at opened
    · cases opened
    · next fields decoded =>
      cases opened
      exact ⟨fields, decoded, rfl⟩
    · cases opened
  · rintro ⟨fields, decoded, same⟩
    rcases document with ⟨held, ordered⟩
    cases same
    simp only [decoded]
    rfl

theorem lookAt_ok (sound : isSourceFile (chars selection.sourceFile) = true) {answer : Option String}
    (looked : ManifestEnv.lookAt tree selection = .ok answer) : answer = none ↔ Unlinked tree selection.place := by
  unfold ManifestEnv.lookAt at looked
  simp only [sourcePath_eq sound, List.drop_left] at looked
  obtain ⟨linked, walked, looked⟩ := bind_ok_iff.mp looked
  have clear := meetsSymlink_iff walked
  simp only [List.nil_append] at clear
  rw [Unlinked, ← clear]
  cases linked with
  | true =>
    cases looked
    exact iff_of_false (by simp) (by simp)
  | false =>
    obtain ⟨path, resolved, looked⟩ := bind_ok_iff.mp looked
    have plain := tree.resolvePlain selection.place path (place_level sound) (clear.mp rfl) resolved
    subst plain
    simp only [PurePath.isRelativeTo, beq_self_eq_true, Bool.true_and, List.isPrefixOf_iff_prefix.mpr
      (List.prefix_append _ _), if_true] at looked
    cases looked
    exact iff_of_true rfl rfl

theorem lookAt_answers (sound : isSourceFile (chars selection.sourceFile) = true) :
    (∃ answer, ManifestEnv.lookAt tree selection = .ok answer) ↔ Lookable tree selection.place := by
  unfold ManifestEnv.lookAt Lookable
  simp only [sourcePath_eq sound, List.drop_left]
  constructor
  · rintro ⟨answer, looked⟩
    obtain ⟨linked, walked, looked⟩ := bind_ok_iff.mp looked
    refine ⟨linked, walked, ?_⟩
    rintro rfl
    obtain ⟨path, resolved, -⟩ := bind_ok_iff.mp looked
    exact ⟨path, resolved⟩
  · rintro ⟨linked, walked, resolves⟩
    cases linked with
    | true => exact ⟨_, bind_ok_iff.mpr ⟨true, walked, rfl⟩⟩
    | false =>
      obtain ⟨path, resolved⟩ := resolves rfl
      exact ⟨_, bind_ok_iff.mpr ⟨false, walked, bind_ok_iff.mpr ⟨path, resolved, rfl⟩⟩⟩

theorem readSource_ok (sound : isSourceFile (chars selection.sourceFile) = true) {document : Document} :
    env.readSource tree selection = .ok document ↔ ∃ payload fields, tree.read selection.place = .ok payload ∧
      hexDigest env.hash payload = selection.digest ∧ env.decode payload = .ok (.obj fields) ∧
      document.fields = Dict.ofList fields := by
  unfold ManifestEnv.readSource
  simp only [sourcePath_eq sound, List.drop_left]
  constructor
  · intro loaded
    split at loaded
    · cases loaded
    · next payload readable =>
      split at loaded
      · cases loaded
      · next digest =>
        split at loaded
        · cases loaded
        · next opened decoded =>
          cases loaded
          obtain ⟨fields, decoded, same⟩ := document_ok.mp decoded
          exact ⟨payload, fields, readable, not_not.mp digest, decoded, same⟩
  · rintro ⟨payload, fields, readable, digest, decoded, same⟩
    have opened : env.document payload (String.ofList
        (PurePath.text ⟨tree.root.root, tree.root.parts ++ selection.place⟩)) = .ok document :=
      document_ok.mpr ⟨fields, decoded, same⟩
    simp only [readable, digest, ne_eq, not_true_eq_false, if_false, opened]

theorem loadSource_ok (sound : isSourceFile (chars selection.sourceFile) = true) {loaded : Except String Document}
    (returned : env.loadSource tree selection = .ok loaded) {document : Document} : loaded = .ok document ↔
      ∃ payload fields, Holds env tree selection payload fields ∧ document.fields = Dict.ofList fields := by
  obtain ⟨answer, looked, returned⟩ := bind_ok_iff.mp returned
  have clear := lookAt_ok sound looked
  cases answer with
  | some detail =>
    cases returned
    refine iff_of_false (by simp) ?_
    rintro ⟨payload, fields, held, -⟩
    exact absurd (clear.mpr held.unlinked) (by simp)
  | none =>
    cases returned
    rw [readSource_ok sound]
    constructor
    · rintro ⟨payload, fields, readable, digest, decoded, same⟩
      exact ⟨payload, fields, ⟨clear.mp rfl, readable, digest, decoded⟩, same⟩
    · rintro ⟨payload, fields, held, same⟩
      exact ⟨payload, fields, held.readable, held.digest, held.decoded, same⟩

end Sources

section Reading

variable {selected next : List Selection} {lineNumber : Nat}

theorem selectRecord_ok {record : Json} (accepted : selectRecord lineNumber record selected = .ok next) :
    ∃ fields, record = .obj fields ∧ (isSelecting fields = false ∧ next = selected ∨ isSelecting fields = true ∧
      ∃ selection, selectionOf fields = some selection ∧ selection.layerId ∉ selected.map (fun past => past.layerId) ∧
        next = selected ++ [selection]) := by
  unfold selectRecord at accepted
  split at accepted
  · next fields =>
    refine ⟨fields, rfl, ?_⟩
    split at accepted
    · next other =>
      cases accepted
      exact Or.inl ⟨by simp [isSelecting, other], rfl⟩
    · next ours =>
      replace ours := not_not.mp ours
      split at accepted
      · cases accepted
      · cases accepted
      · split at accepted
        · next chosen =>
          split at accepted
          · cases accepted
          · next selection read =>
            rcases bind_ok_iff.mp accepted with ⟨_, new, accepted⟩
            rw [require_ok_iff] at new
            cases accepted
            have chosen : isSelecting fields = true := by simpa [isSelecting, ours] using chosen
            exact Or.inr ⟨chosen, selection, read, new.1, rfl⟩
        · next unchosen =>
          cases accepted
          exact Or.inl ⟨by simpa [isSelecting, ours] using unchosen, rfl⟩
  · cases accepted

theorem readManifest_ok (accepted : env.readManifest lineNumber selected lines = .ok next) :
    ∃ new, next = selected ++ new ∧
      List.Forall₂ (fun record selection => selectionOf record = some selection) (selectingRecords env lines) new ∧
      ((selected.map fun past => past.layerId).Nodup → (next.map fun past => past.layerId).Nodup) := by
  induction lines generalizing lineNumber selected with
  | nil =>
    cases accepted
    exact ⟨[], (List.append_nil _).symm, .nil, id⟩
  | cons line lines ih =>
    rcases bind_ok_iff.mp accepted with ⟨record, loaded, continued⟩
    rcases bind_ok_iff.mp continued with ⟨middle, chosen, later⟩
    rcases selectRecord_ok chosen with ⟨fields, rfl, cases⟩
    have read : env.loads line = .ok (.obj fields) := by
      unfold ManifestEnv.loadLine at loaded
      split at loaded
      · next loads =>
        cases loaded
        exact loads
      · cases loaded
    rcases ih later with ⟨new, rfl, matched, distinct⟩
    rcases cases with ⟨skipped, rfl⟩ | ⟨taken, selection, picked, fresh, rfl⟩
    · refine ⟨new, rfl, ?_, distinct⟩
      have none : selectingRecord env line = none := by simp [selectingRecord, read, skipped]
      rw [selectingRecords, List.filterMap_cons_none none]
      exact matched
    · refine ⟨selection :: new, by simp, ?_, ?_⟩
      · have some : selectingRecord env line = some fields := by simp [selectingRecord, read, taken]
        rw [selectingRecords, List.filterMap_cons_some some]
        exact .cons picked matched
      · intro unique
        apply distinct
        rw [List.map_append, List.nodup_append']
        exact ⟨unique, List.nodup_singleton _, by simpa using fresh⟩

theorem readManifest_cons {line : String} {record : Json} {middle : List Selection}
    (read : env.loads line = .ok record) (taken : selectRecord lineNumber record selected = .ok middle) :
    env.readManifest lineNumber selected (line :: lines) = env.readManifest (lineNumber + 1) middle lines := by
  simp only [ManifestEnv.readManifest, ManifestEnv.loadLine, read, bind, Except.bind, taken]

theorem selections_of_read (read : env.readManifest 1 [] lines = .ok selected) : selections env lines = selected := by
  rcases readManifest_ok read with ⟨new, rfl, matched, -⟩
  exact StableSort.forall₂_filterMap_eq matched

theorem iterManifestLayers_of_read (tree : SourceTree) (read : env.readManifest 1 [] lines = .ok selected)
    (some : selected ≠ []) : env.iterManifestLayers tree lines = env.yieldLayers tree selected := by
  unfold ManifestEnv.iterManifestLayers
  rw [read]
  cases selected with
  | nil => exact absurd rfl some
  | cons first later => rfl

end Reading

section Results

variable {result : SourceLayer} {results : List SourceLayer}

theorem sourceLayer_ok (made : env.sourceLayer tree selection = .ok result) :
    result.layerId = selection.layerId ∧ ∃ loaded, env.loadSource tree selection = .ok loaded ∧
      (result.error = none ↔ ∃ document, loaded = .ok document) ∧
      ∀ document, loaded = .ok document → result.document = document := by
  obtain ⟨loaded, loading, made⟩ := bind_ok_iff.mp made
  cases loaded with
  | ok document =>
    cases made
    refine ⟨rfl, _, loading, iff_of_true rfl ⟨document, rfl⟩, ?_⟩
    rintro _ ⟨⟩
    rfl
  | error detail =>
    cases made
    refine ⟨rfl, _, loading, iff_of_false (by simp) (by simp), ?_⟩
    rintro _ ⟨⟩

theorem sourceLayer_made (sound : isSourceFile (chars selection.sourceFile) = true) :
    (∃ result, env.sourceLayer tree selection = .ok result) ↔ Lookable tree selection.place := by
  rw [← lookAt_answers sound]
  constructor
  · rintro ⟨result, made⟩
    obtain ⟨loaded, loading, -⟩ := bind_ok_iff.mp made
    obtain ⟨answer, looked, -⟩ := bind_ok_iff.mp loading
    exact ⟨answer, looked⟩
  · rintro ⟨answer, looked⟩
    have loads : ∃ loaded, env.loadSource tree selection = .ok loaded := by
      cases answer with
      | some detail => exact ⟨_, bind_ok_iff.mpr ⟨_, looked, rfl⟩⟩
      | none => exact ⟨_, bind_ok_iff.mpr ⟨_, looked, rfl⟩⟩
    obtain ⟨loaded, loading⟩ := loads
    cases loaded with
    | ok document => exact ⟨_, bind_ok_iff.mpr ⟨_, loading, rfl⟩⟩
    | error detail => exact ⟨_, bind_ok_iff.mpr ⟨_, loading, rfl⟩⟩

theorem sourceLayer_error (sound : isSourceFile (chars selection.sourceFile) = true)
    (made : env.sourceLayer tree selection = .ok result) : result.error = none ↔ Delivers env tree selection := by
  obtain ⟨-, loaded, loading, clean, -⟩ := sourceLayer_ok made
  rw [clean]
  constructor
  · rintro ⟨document, rfl⟩
    obtain ⟨payload, fields, held, -⟩ := (loadSource_ok sound loading).mp rfl
    exact ⟨payload, fields, held⟩
  · rintro ⟨payload, fields, held⟩
    exact ⟨⟨Dict.ofList fields, Dict.ordered_ofList fields⟩,
      (loadSource_ok sound loading).mpr ⟨payload, fields, held, rfl⟩⟩

theorem sourceLayer_document (sound : isSourceFile (chars selection.sourceFile) = true)
    (made : env.sourceLayer tree selection = .ok result) {payload : Bytes} {fields : Dict}
    (held : Holds env tree selection payload fields) : result.document.fields = Dict.ofList fields := by
  obtain ⟨-, loaded, loading, -, document⟩ := sourceLayer_ok made
  have read : loaded = .ok ⟨Dict.ofList fields, Dict.ordered_ofList fields⟩ :=
    (loadSource_ok sound loading).mpr ⟨payload, fields, held, rfl⟩
  rw [document _ read]

theorem read_ok {place : List (List Char)} {payload : Bytes} : tree.read place = .ok payload ↔
    tree.entry place = some (.file payload) ∨ tree.entry place = some (.special (some payload)) := by
  unfold SourceTree.read
  split
  · next content found => simp [found]
  · next content found => simp [found]
  · next regular special =>
    refine iff_of_false (by simp) ?_
    rintro (found | found)
    · exact regular payload found
    · exact special payload found

theorem fromFile_iff (sound : isSourceFile (chars selection.sourceFile) = true)
    (made : env.sourceLayer tree selection = .ok result) :
    (result.error = none → FromFile env tree selection result) ↔
      ∀ payload fields, Holds env tree selection payload fields →
        tree.entry selection.place ≠ some (.special (some payload)) := by
  rw [sourceLayer_error sound made]
  constructor
  · intro confined payload fields held special
    rcases confined ⟨payload, fields, held⟩ with ⟨content, _, regular, -⟩
    rw [special] at regular
    cases regular
  · rintro regular ⟨payload, fields, held⟩
    rcases read_ok.mp held.readable with found | found
    · exact ⟨payload, fields, found, held.unlinked, place_level sound, held.digest, held.decoded,
        sourceLayer_document sound made held⟩
    · exact absurd found (regular payload fields held)

theorem yieldLayers_cases (env : ManifestEnv) (tree : SourceTree) (selected : List Selection) :
    List.Forall₂ (fun selection result => env.sourceLayer tree selection = .ok result) selected
      (env.yieldLayers tree selected).1 ∨
    ((env.yieldLayers tree selected).1.length < selected.length ∧
      ∃ selection ∈ selected, ¬ ∃ result, env.sourceLayer tree selection = .ok result) := by
  induction selected with
  | nil => exact Or.inl .nil
  | cons selection later ih =>
    cases made : env.sourceLayer tree selection with
    | error failure =>
      refine Or.inr ⟨by simp [ManifestEnv.yieldLayers, made], selection, List.mem_cons_self, ?_⟩
      rw [made]
      rintro ⟨result, absurdity⟩
      cases absurdity
    | ok layer =>
      simp only [ManifestEnv.yieldLayers, made]
      rcases ih with yielded | ⟨short, stuck, member, raising⟩
      · exact Or.inl (.cons made yielded)
      · refine Or.inr ⟨?_, stuck, List.mem_cons_of_mem _ member, raising⟩
        simpa using short

theorem selections_sound (member : selection ∈ selections env lines) :
    isSourceFile (chars selection.sourceFile) = true := by
  rcases List.mem_filterMap.mp member with ⟨record, -, read⟩
  exact (selectionOf_ok read).2

section Yielded

variable (matched : List.Forall₂ (fun record selection => selectionOf record = some selection)
    (selectingRecords env lines) (selections env lines))
  (yielded : List.Forall₂ (fun selection result => env.sourceLayer tree selection = .ok result)
    (selections env lines) results)

include matched yielded in
theorem layerIds_yielded : (selectingRecords env lines).map (fun record => record.get "layer_id") =
    results.map fun result => .str result.layerId := by
  have named : (selectingRecords env lines).map (fun record => record.get "layer_id") =
      (selections env lines).map fun selection => .str selection.layerId := by
    refine StableSort.forall₂_map_eq (fun record selection read => ?_) matched
    exact (selectionOf_ok read).1
  rw [named]
  refine StableSort.forall₂_map_eq (fun selection result made => ?_) yielded
  rw [(sourceLayer_ok made).1]

include yielded

theorem confined_iff : List.Forall₂ (fun selection result => result.error = none → FromFile env tree selection result)
      (selections env lines) results ↔
    ∀ selection ∈ selections env lines, ∀ payload fields, Holds env tree selection payload fields →
      tree.entry selection.place ≠ some (.special (some payload)) := by
  constructor
  · intro confined selection member
    obtain ⟨result, zipped, made⟩ := StableSort.forall₂_exists_mem_zip yielded member
    exact (fromFile_iff (selections_sound member) made).mp ((List.forall₂_iff_zip.mp confined).2 zipped)
  · intro regular
    obtain ⟨length, made⟩ := List.forall₂_iff_zip.mp yielded
    refine List.forall₂_iff_zip.mpr ⟨length, fun {selection result} zipped => ?_⟩
    have member := (List.of_mem_zip zipped).1
    exact (fromFile_iff (selections_sound member) (made zipped)).mpr (regular selection member)

theorem oneToOne_iff (distinct : ((selections env lines).map fun selection => selection.layerId).Nodup) :
    (∀ here ∈ (selections env lines).zip results, ∀ there ∈ (selections env lines).zip results,
      here.2.error = none → there.2.error = none → here.1.place = there.1.place → here.2.layerId = there.2.layerId) ↔
    (selections env lines).Pairwise fun left right => left.place = right.place →
      ¬ (Delivers env tree left ∧ Delivers env tree right) := by
  have pair : ∀ {here : Selection × SourceLayer}, here ∈ (selections env lines).zip results →
      here.1 ∈ selections env lines ∧ env.sourceLayer tree here.1 = .ok here.2 :=
    fun member => ⟨(List.of_mem_zip member).1, (List.forall₂_iff_zip.mp yielded).2 member⟩
  constructor
  · intro oneToOne
    refine (List.pairwise_map.mp distinct).imp_of_mem fun {left right} first second apart same both => apart ?_
    obtain ⟨here, zipped, made⟩ := StableSort.forall₂_exists_mem_zip yielded first
    obtain ⟨there, alsoZipped, alsoMade⟩ := StableSort.forall₂_exists_mem_zip yielded second
    have ids := oneToOne _ zipped _ alsoZipped ((sourceLayer_error (selections_sound first) made).mpr both.1)
      ((sourceLayer_error (selections_sound second) alsoMade).mpr both.2) same
    rwa [(sourceLayer_ok made).1, (sourceLayer_ok alsoMade).1] at ids
  · intro spelled
    have pairs : ∀ ⦃left⦄, left ∈ selections env lines → ∀ ⦃right⦄, right ∈ selections env lines →
        OneLayer env tree left right := by
      refine List.Pairwise.forall_of_forall_of_flip ?_ ?_ ?_
      · intro selection _ _ _ _
        rfl
      · exact spelled.imp fun apart same first second => absurd ⟨first, second⟩ (apart same)
      · exact spelled.imp fun apart same first second => absurd ⟨second, first⟩ (apart same.symm)
    intro here zipped there alsoZipped clean other same
    obtain ⟨first, made⟩ := pair zipped
    obtain ⟨second, alsoMade⟩ := pair alsoZipped
    rw [(sourceLayer_ok made).1, (sourceLayer_ok alsoMade).1]
    exact pairs first second same ((sourceLayer_error (selections_sound first) made).mp clean)
      ((sourceLayer_error (selections_sound second) alsoMade).mp other)

end Yielded

theorem selections_matched {selected : List Selection} (read : env.readManifest 1 [] lines = .ok selected) :
    List.Forall₂ (fun record selection => selectionOf record = some selection) (selectingRecords env lines)
        (selections env lines) ∧ ((selections env lines).map fun selection => selection.layerId).Nodup := by
  have same := selections_of_read read
  obtain ⟨new, rfl, matched, distinct⟩ := readManifest_ok read
  rw [same]
  exact ⟨matched, distinct List.nodup_nil⟩

theorem oneSpelling_of_confined {selected : List Selection} (read : env.readManifest 1 [] lines = .ok selected)
    (some : selected ≠ []) (kept : ConfinedOneToOne env tree lines (env.iterManifestLayers tree lines).1) :
    OneSpelling env tree (selections env lines) := by
  obtain ⟨matched, distinct⟩ := selections_matched read
  rw [iterManifestLayers_of_read tree read some, ← selections_of_read read] at kept
  rcases yieldLayers_cases env tree (selections env lines) with yielded | ⟨short, -⟩
  · refine ⟨fun selection member => ?_, (confined_iff yielded).mp kept.confined,
      (oneToOne_iff yielded distinct).mp kept.oneToOne⟩
    obtain ⟨result, -, made⟩ := StableSort.forall₂_exists_mem_zip yielded member
    exact (sourceLayer_made (selections_sound member)).mp ⟨result, made⟩
  · have counted := congrArg List.length kept.complete
    rw [List.length_map, List.length_map, matched.length_eq] at counted
    omega

end Results

def emptyObject : Bytes := dumps true (.obj [])

def twoFiles : SourceTree where
  root := ⟨['/'], [chars "findings"]⟩
  entry place := if place = [chars "a.json"] ∨ place = [chars "team", chars "a.json"] then some (.file emptyObject)
    else if place = [chars "team"] then some .dir else none
  isSymlink _ := .ok false
  resolve path := .ok path
  osError _ := "[Errno 2] No such file or directory"
  isSymlinkEntry place linked asked := by
    cases asked
    simp only [Bool.false_eq_true, false_iff]
    split
    · simp
    · split <;> simp
  resolvePlain _ _ _ _ resolved := (Except.ok.inj resolved).symm

def record (sourceFile layerId : String) : Json :=
  .obj [("artifact", .str "layer"), ("decision", .str "selected"), ("format_version", .int 1),
    ("layer_id", .str layerId), ("namespace", .str "traust_ledger"),
    ("source_digest", .str "44136fa355b3678a1146ad16f7e8649e94fb4fc21fe77e8310c060f61caaff8a"),
    ("source_file", .str sourceFile)]

def lineOf (record : Json) : String := String.ofList (text true record)

def threeLines : ManifestEnv where
  hash := sha256
  loads line := if line = lineOf (record "a.json" "one") then .ok (record "a.json" "one")
    else if line = lineOf (record "./a.json" "two") then .ok (record "./a.json" "two")
    else if line = lineOf (record "team/a.json" "two") then .ok (record "team/a.json" "two")
    else .error "Expecting value"
  decode payload := if payload = emptyObject then .ok (.obj []) else .error "Expecting value"

theorem lineOf_injective {left right : Json} (same : lineOf left = lineOf right) : left = right := by
  have texts : text true left = text true right := String.ofList_injective same
  exact dumps_injective (congrArg utf8 texts)

theorem loads_one : threeLines.loads (lineOf (record "a.json" "one")) = .ok (record "a.json" "one") := by
  simp only [threeLines, if_true]

theorem loads_dotted : threeLines.loads (lineOf (record "./a.json" "two")) = .ok (record "./a.json" "two") := by
  have first : ¬ lineOf (record "./a.json" "two") = lineOf (record "a.json" "one") :=
    fun same => absurd (lineOf_injective same) (by decide)
  simp only [threeLines, if_neg first, if_true]

theorem loads_team : threeLines.loads (lineOf (record "team/a.json" "two")) = .ok (record "team/a.json" "two") := by
  have first : ¬ lineOf (record "team/a.json" "two") = lineOf (record "a.json" "one") :=
    fun same => absurd (lineOf_injective same) (by decide)
  have second : ¬ lineOf (record "team/a.json" "two") = lineOf (record "./a.json" "two") :=
    fun same => absurd (lineOf_injective same) (by decide)
  simp only [threeLines, if_neg first, if_neg second, if_true]

theorem twoFiles_plain (place : List (List Char)) : twoFiles.entry place ≠ some .symlink ∧
    ∀ content, twoFiles.entry place ≠ some (.special content) := by
  simp only [twoFiles]
  split
  · simp
  · split <;> simp

def selectionFor (sourceFile layerId : String) : Selection :=
  ⟨layerId, sourceFile, "44136fa355b3678a1146ad16f7e8649e94fb4fc21fe77e8310c060f61caaff8a", none⟩

def teamLines : List String := [lineOf (record "a.json" "one"), lineOf (record "team/a.json" "two")]

theorem teamLines_read : threeLines.readManifest 1 [] teamLines =
    .ok [selectionFor "a.json" "one", selectionFor "team/a.json" "two"] := by
  have first : selectRecord 1 (record "a.json" "one") [] = .ok [selectionFor "a.json" "one"] := by decide +kernel
  have second : selectRecord 2 (record "team/a.json" "two") [selectionFor "a.json" "one"] =
      .ok [selectionFor "a.json" "one", selectionFor "team/a.json" "two"] := by decide +kernel
  rw [teamLines, readManifest_cons loads_one first, readManifest_cons loads_team second]
  rfl

theorem twoFiles_lookable (place : List (List Char)) : Lookable twoFiles place := by
  have walked : ∀ current parts, twoFiles.meetsSymlink current parts = .ok false := by
    intro current parts
    induction parts generalizing current with
    | nil => rfl
    | cons part parts ih => exact bind_ok_iff.mpr ⟨false, rfl, ih _⟩
  exact ⟨false, walked [] place, fun _ => ⟨_, rfl⟩⟩

def dottedLines : List String := [lineOf (record "a.json" "one"), lineOf (record "./a.json" "two")]

theorem delivers_a {selection : Selection} (place : selection.place = [chars "a.json"])
    (digest : selection.digest = hexDigest sha256 emptyObject) : Delivers threeLines twoFiles selection := by
  refine ⟨emptyObject, [], ?_, ?_, digest.symm, by decide +kernel⟩
  · intro start _ _
    exact (twoFiles_plain start).1
  · rw [place]
    decide +kernel

theorem dottedLines_read : threeLines.readManifest 1 [] dottedLines =
    .ok [selectionFor "a.json" "one", selectionFor "./a.json" "two"] := by
  have first : selectRecord 1 (record "a.json" "one") [] = .ok [selectionFor "a.json" "one"] := by decide +kernel
  have second : selectRecord 2 (record "./a.json" "two") [selectionFor "a.json" "one"] =
      .ok [selectionFor "a.json" "one", selectionFor "./a.json" "two"] := by decide +kernel
  rw [dottedLines, readManifest_cons loads_one first, readManifest_cons loads_dotted second]
  rfl

end LedgerProof
