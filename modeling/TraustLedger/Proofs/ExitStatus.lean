import TraustLedger.Proofs.LayerIdGrammar
import TraustLedger.Proofs.PagedFindings
import TraustLedger.VerifyCommands

namespace LedgerProof

open Hashing Python Runs Sha256 LedgerModel

variable {shell : Shell} {checkSignatures : Bool} {layer : Layer}

def Verdict (shell : Shell) (checkSignatures : Bool) (layer : Layer) (passed : Bool) : Prop :=
  ∃ report, shell.verify checkSignatures layer = .ok report ∧ report.passed = passed

/-- The layers an invocation hands to `verify_layer`. -/
def Checks (shell : Shell) (args : VerifyArgs) (layer : Layer) : Prop :=
  if args.path.getD "" ≠ "" then shell.files (args.path.getD "") = .document layer
  else if args.all = true then
    ∃ layerId ∈ shell.listLayerIds, ∃ found, shell.load layerId = .ok found ∧ layer = found.getD emptyLayer
  else args.layerId.getD "" ≠ "" ∧ shell.loadLayer (args.layerId.getD "") = .ok layer

def ById (args : VerifyArgs) : Prop :=
  args.path.getD "" = "" ∧ args.all = false ∧ args.layerId.getD "" ≠ ""

theorem exitCode_zero_iff {outcome : Outcome Nat} : exitCode outcome = 0 ↔ outcome = .ok 0 := by
  cases outcome with
  | ok status => simp [exitCode]
  | error failure => simp [exitCode]

theorem Verdict.unique {first second : Bool} (one : Verdict shell checkSignatures layer first)
    (other : Verdict shell checkSignatures layer second) : first = second := by
  rcases one with ⟨report, verified, rfl⟩
  rcases other with ⟨again, verifiedAgain, rfl⟩
  rw [verified] at verifiedAgain
  cases verifiedAgain
  rfl

section Modes

theorem verifyPath_zero_iff {path : String} : shell.verifyPath path checkSignatures = .ok 0 ↔
    ∃ layer, shell.files path = .document layer ∧ Verdict shell checkSignatures layer true := by
  unfold Shell.verifyPath
  cases shell.files path with
  | absent => simp [pure, Except.pure]
  | unreadable => simp [pure, Except.pure]
  | document layer =>
    simp only [LayerFile.document.injEq, exists_eq_left']
    constructor
    · intro ended
      rcases bind_ok_iff.mp ended with ⟨report, verified, status⟩
      refine ⟨report, verified, ?_⟩
      cases passed : report.passed with
      | true => rfl
      | false =>
        rw [passed] at status
        cases status
    · intro verdict
      rcases verdict with ⟨report, verified, passed⟩
      refine bind_ok_iff.mpr ⟨report, verified, ?_⟩
      rw [passed]
      rfl

theorem verifyEach_false_iff {layerIds : List String} : shell.verifyEach checkSignatures layerIds = .ok false ↔
    ∀ layerId ∈ layerIds, ∃ found, shell.load layerId = .ok found ∧
      Verdict shell checkSignatures (found.getD emptyLayer) true := by
  induction layerIds with
  | nil => simp [Shell.verifyEach, pure, Except.pure]
  | cons layerId layerIds ih =>
    rw [List.forall_mem_cons, ← ih, Shell.verifyEach]
    constructor
    · intro ended
      rcases bind_ok_iff.mp ended with ⟨found, loaded, ended⟩
      rcases bind_ok_iff.mp ended with ⟨report, verified, ended⟩
      rcases bind_ok_iff.mp ended with ⟨anyFailed, later, ended⟩
      rw [pure, Applicative.toPure] at ended
      have flags : (!report.passed || anyFailed) = false := Except.ok.inj ended
      rw [Bool.or_eq_false_iff, Bool.not_eq_false'] at flags
      rcases flags with ⟨passed, rfl⟩
      exact ⟨⟨found, loaded, report, verified, passed⟩, later⟩
    · intro each
      rcases each with ⟨⟨found, loaded, report, verified, passed⟩, later⟩
      refine bind_ok_iff.mpr ⟨found, loaded, bind_ok_iff.mpr ⟨report, verified, bind_ok_iff.mpr ⟨false, later, ?_⟩⟩⟩
      rw [passed]
      rfl

theorem verifyAll_zero_iff : shell.verifyAll checkSignatures = .ok 0 ↔ shell.listLayerIds ≠ [] ∧
    ∀ layerId ∈ shell.listLayerIds, ∃ found, shell.load layerId = .ok found ∧
      Verdict shell checkSignatures (found.getD emptyLayer) true := by
  rw [← verifyEach_false_iff]
  unfold Shell.verifyAll
  constructor
  · intro ended
    rcases bind_ok_iff.mp ended with ⟨anyFailed, walked, status⟩
    cases found : shell.listLayerIds with
    | nil =>
      rw [found] at status
      cases status
    | cons layerId layerIds =>
      rw [found] at status walked
      cases anyFailed with
      | true => cases status
      | false => exact ⟨List.cons_ne_nil _ _, walked⟩
  · intro clean
    rcases clean with ⟨some, walked⟩
    refine bind_ok_iff.mpr ⟨false, walked, ?_⟩
    cases found : shell.listLayerIds with
    | nil => exact absurd found some
    | cons layerId layerIds => rfl

theorem cmdVerify_zero_iff {args : VerifyArgs} : exitCode (shell.cmdVerify args) = 0 ↔ shell.authorised = true ∧
    if args.path.getD "" ≠ "" then
      ∃ layer, shell.files (args.path.getD "") = .document layer ∧ Verdict shell args.checkSignatures layer true
    else if args.all = true then
      shell.listLayerIds ≠ [] ∧ ∀ layerId ∈ shell.listLayerIds, ∃ found, shell.load layerId = .ok found ∧
        Verdict shell args.checkSignatures (found.getD emptyLayer) true
    else args.layerId.getD "" ≠ "" ∧ ∃ layer, shell.loadLayer (args.layerId.getD "") = .ok layer ∧
      ∃ passed, Verdict shell args.checkSignatures layer passed := by
  rw [exitCode_zero_iff]
  unfold Shell.cmdVerify
  cases authorised : shell.authorised with
  | false => simp [pure, Except.pure]
  | true =>
    simp only [Bool.true_eq_false, if_false, true_and]
    by_cases named : args.path.getD "" ≠ ""
    · simp only [if_pos named]
      exact verifyPath_zero_iff
    · simp only [if_neg named]
      by_cases all : args.all = true
      · simp only [if_pos all]
        exact verifyAll_zero_iff
      · simp only [if_neg all]
        by_cases blank : args.layerId.getD "" = ""
        · simp [blank, pure, Except.pure]
        · simp only [ne_eq, blank, not_false_eq_true, true_and]
          constructor
          · intro ended
            rcases bind_ok_iff.mp ended with ⟨layer, loaded, ended⟩
            rcases bind_ok_iff.mp ended with ⟨report, verified, -⟩
            exact ⟨layer, loaded, report.passed, report, verified, rfl⟩
          · intro given
            rcases given with ⟨layer, loaded, passed, report, verified, -⟩
            exact bind_ok_iff.mpr ⟨layer, loaded, bind_ok_iff.mpr ⟨report, verified, rfl⟩⟩

theorem verify_sound_iff (args : VerifyArgs) :
    (exitCode (shell.cmdVerify args) = 0 →
      ∀ layer, Checks shell args layer → Verdict shell args.checkSignatures layer true) ↔
    ¬ (shell.authorised = true ∧ ById args ∧ ∃ layer, shell.loadLayer (args.layerId.getD "") = .ok layer ∧
      Verdict shell args.checkSignatures layer false) := by
  rw [cmdVerify_zero_iff]
  unfold Checks ById
  by_cases named : args.path.getD "" ≠ ""
  · simp only [if_pos named]
    constructor
    · intro sound defect
      exact named defect.2.1.1
    · intro _ ended layer found
      rcases ended with ⟨-, checked, held, verdict⟩
      rw [held] at found
      cases found
      exact verdict
  · simp only [if_neg named]
    by_cases all : args.all = true
    · simp only [if_pos all]
      constructor
      · intro sound defect
        rw [defect.2.1.2.1] at all
        cases all
      · intro _ ended layer found
        rcases ended with ⟨-, -, each⟩
        rcases found with ⟨layerId, listed, found, loaded, rfl⟩
        rcases each layerId listed with ⟨again, loadedAgain, verdict⟩
        rw [loaded] at loadedAgain
        cases loadedAgain
        exact verdict
    · simp only [if_neg all]
      constructor
      · intro sound defect
        rcases defect with ⟨authorised, ⟨-, -, spelled⟩, layer, loaded, failed⟩
        have passed := sound ⟨authorised, spelled, layer, loaded, false, failed⟩ layer ⟨spelled, loaded⟩
        cases failed.unique passed
      · intro spared ended layer found
        rcases ended with ⟨authorised, spelled, checked, loaded, passed, verdict⟩
        rw [found.2] at loaded
        cases loaded
        cases passed with
        | true => exact verdict
        | false =>
          refine absurd ⟨authorised, ⟨?_, ?_, spelled⟩, layer, found.2, verdict⟩ spared
          · simpa using named
          · simpa using all

end Modes

def holding (shell : Shell) (layerId : String) (layer : Layer) : Shell :=
  { shell with stored := ⟨[(layerId, layer)], by simp⟩ }

/-- The backend takes the id, and the document for a complete layer. -/
def Takes (shell : Shell) (layerId : String) (layer : Layer) : Prop :=
  layerId ≠ "" ∧ namesLayer shell.backend (chars layerId) = true ∧ shell.contracts.validateLayer layer = true

section Loading

variable {layerId : String} {found : Option Layer}

theorem mem_shellIds : layerId ∈ shell.listLayerIds ↔
    ∃ layer, (layerId, layer) ∈ shell.stored.entries ∧ shell.lists layer = true := by
  rw [Shell.listLayerIds, List.mem_insertionSort]
  constructor
  · intro member
    rcases List.mem_map.mp member with ⟨entry, kept, rfl⟩
    rcases List.mem_filter.mp kept with ⟨held, listed⟩
    exact ⟨entry.2, held, listed⟩
  · intro given
    rcases given with ⟨layer, held, listed⟩
    exact List.mem_map.mpr ⟨(layerId, layer), List.mem_filter.mpr ⟨held, listed⟩, rfl⟩

theorem load_iff (held : shell.stored.entries.lookup layerId = some layer) : shell.load layerId = .ok found ↔
    layerId ≠ "" ∧ namesLayer shell.backend (chars layerId) = true ∧
      (shell.backend = .file ∨ shell.contracts.validateLayer layer = true) ∧ found = some layer := by
  unfold Shell.load
  constructor
  · intro loading
    rcases bind_ok_iff.mp loading with ⟨key, resolved, fetched⟩
    rcases layerKey_ok_iff.mp resolved with ⟨spelled, named, rfl⟩
    rw [held] at fetched
    rcases bind_ok_iff.mp fetched with ⟨_, valid, returned⟩
    cases returned
    exact ⟨spelled, named, require_ok_iff.mp valid, rfl⟩
  · intro given
    rcases given with ⟨spelled, named, valid, rfl⟩
    refine bind_ok_iff.mpr ⟨layerId, layerKey_ok_iff.mpr ⟨spelled, named, rfl⟩, ?_⟩
    rw [held]
    exact bind_ok_iff.mpr ⟨(), require_ok_iff.mpr valid, rfl⟩

theorem load_listed_iff (held : shell.stored.entries.lookup layerId = some layer) :
    (shell.lists layer = true ∧ shell.load layerId = .ok (some layer)) ↔ Takes shell layerId layer := by
  rw [load_iff held, Takes]
  unfold Shell.lists
  cases backend : shell.backend with
  | file =>
    simp only [true_or, and_true]
    tauto
  | db => simp

theorem loadLayer_iff (held : shell.stored.entries.lookup layerId = some layer) {loaded : Layer} :
    shell.loadLayer layerId = .ok loaded ↔ Takes shell layerId layer ∧ loaded = layer := by
  unfold Shell.loadLayer
  constructor
  · intro accepted
    rcases bind_ok_iff.mp accepted with ⟨found, loading, accepted⟩
    rcases (load_iff held).mp loading with ⟨spelled, named, -, rfl⟩
    rcases bind_ok_iff.mp accepted with ⟨_, valid, accepted⟩
    cases accepted
    exact ⟨⟨spelled, named, require_ok_iff.mp valid⟩, rfl⟩
  · intro taken
    rcases taken with ⟨⟨spelled, named, valid⟩, rfl⟩
    refine bind_ok_iff.mpr ⟨some loaded, (load_iff held).mpr ⟨spelled, named, Or.inr valid, rfl⟩, ?_⟩
    exact bind_ok_iff.mpr ⟨(), require_ok_iff.mpr valid, rfl⟩

end Loading

theorem verifyPath_le_one {path : String} {status : Nat} (ended : shell.verifyPath path checkSignatures = .ok status) :
    status ≤ 1 := by
  unfold Shell.verifyPath at ended
  split at ended
  · cases ended
    omega
  · cases ended
    omega
  · rcases bind_ok_iff.mp ended with ⟨report, -, answered⟩
    split at answered <;> cases answered <;> omega

theorem verifyAll_le_one {status : Nat} (ended : shell.verifyAll checkSignatures = .ok status) : status ≤ 1 := by
  rcases bind_ok_iff.mp ended with ⟨anyFailed, -, answered⟩
  split at answered <;> cases answered <;> omega

theorem exitCode_le_one (args : VerifyArgs) : exitCode (shell.cmdVerify args) ≤ 1 := by
  have bound : ∀ status, shell.cmdVerify args = .ok status → status ≤ 1 := by
    intro status ended
    unfold Shell.cmdVerify at ended
    simp only at ended
    split_ifs at ended
    · cases ended
      omega
    · exact verifyPath_le_one ended
    · exact verifyAll_le_one ended
    · cases ended
      omega
    · rcases bind_ok_iff.mp ended with ⟨layer, -, verifying⟩
      rcases bind_ok_iff.mp verifying with ⟨report, -, answered⟩
      cases answered
      omega
  cases outcome : shell.cmdVerify args with
  | ok status => exact bound status outcome
  | error failure => exact Nat.le_refl 1

theorem exitCode_eq_iff (other : Shell) (args otherArgs : VerifyArgs) :
    exitCode (shell.cmdVerify args) = exitCode (other.cmdVerify otherArgs) ↔
      (exitCode (shell.cmdVerify args) = 0 ↔ exitCode (other.cmdVerify otherArgs) = 0) := by
  have here := @exitCode_le_one shell args
  have there := @exitCode_le_one other otherArgs
  omega

def argsById (layerId : String) (checkSignatures : Bool) : VerifyArgs := ⟨some layerId, false, none, checkSignatures⟩

def argsAll (checkSignatures : Bool) : VerifyArgs := ⟨none, true, none, checkSignatures⟩

def argsPath (path : String) (checkSignatures : Bool) : VerifyArgs := ⟨none, false, some path, checkSignatures⟩

section Agreement

variable {layerId : String}

theorem byId_zero_iff (held : shell.stored.entries.lookup layerId = some layer) :
    exitCode (shell.cmdVerify (argsById layerId checkSignatures)) = 0 ↔
      shell.authorised = true ∧ Takes shell layerId layer ∧ ∃ passed, Verdict shell checkSignatures layer passed := by
  rw [cmdVerify_zero_iff]
  simp only [argsById, Option.getD_none, Option.getD_some, ne_eq, not_true_eq_false, if_false, Bool.false_eq_true,
    loadLayer_iff held]
  constructor
  · intro ended
    rcases ended with ⟨authorised, -, loaded, ⟨taken, rfl⟩, verdict⟩
    exact ⟨authorised, taken, verdict⟩
  · intro given
    rcases given with ⟨authorised, taken, verdict⟩
    exact ⟨authorised, taken.1, layer, ⟨taken, rfl⟩, verdict⟩

theorem byPath_zero_iff {path : String} (named : path ≠ "") (file : shell.files path = .document layer) :
    exitCode (shell.cmdVerify (argsPath path checkSignatures)) = 0 ↔
      shell.authorised = true ∧ Verdict shell checkSignatures layer true := by
  rw [cmdVerify_zero_iff]
  simp only [argsPath, Option.getD_some, ne_eq, named, not_false_eq_true, if_true, file, LayerFile.document.injEq,
    exists_eq_left']

theorem sweep_zero_iff : exitCode (shell.cmdVerify (argsAll checkSignatures)) = 0 ↔ shell.authorised = true ∧
    (∃ entry ∈ shell.stored.entries, shell.lists entry.2 = true) ∧
    ∀ entry ∈ shell.stored.entries, shell.lists entry.2 = true → Takes shell entry.1 entry.2 ∧
      Verdict shell checkSignatures entry.2 true := by
  rw [cmdVerify_zero_iff]
  simp only [argsAll, Option.getD_none, ne_eq, not_true_eq_false, if_false, if_true]
  constructor
  · intro ended
    rcases ended with ⟨authorised, nonempty, each⟩
    refine ⟨authorised, ?_, ?_⟩
    · rcases List.exists_mem_of_ne_nil _ nonempty with ⟨layerId, member⟩
      rcases mem_shellIds.mp member with ⟨layer, held, listed⟩
      exact ⟨(layerId, layer), held, listed⟩
    · intro entry member listed
      have held := lookup_of_stored shell.stored member
      rcases each entry.1 (mem_shellIds.mpr ⟨entry.2, member, listed⟩) with ⟨found, loaded, verdict⟩
      have same := ((load_iff held).mp loaded).2.2.2
      rw [same] at loaded verdict
      exact ⟨(load_listed_iff held).mp ⟨listed, loaded⟩, verdict⟩
  · intro given
    rcases given with ⟨authorised, ⟨first, member, listed⟩, each⟩
    refine ⟨authorised, ?_, ?_⟩
    · exact List.ne_nil_of_mem (mem_shellIds.mpr ⟨first.2, member, listed⟩)
    · intro layerId member
      rcases mem_shellIds.mp member with ⟨layer, stored, listed⟩
      rcases each (layerId, layer) stored listed with ⟨taken, verdict⟩
      exact ⟨some layer, ((load_listed_iff (lookup_of_stored shell.stored stored)).mpr taken).2, verdict⟩

theorem Takes.listed (taken : Takes shell layerId layer) : shell.lists layer = true := by
  unfold Shell.lists
  cases shell.backend with
  | file => exact taken.2.2
  | db => rfl

theorem alone_zero_iff : exitCode ((holding shell layerId layer).cmdVerify (argsAll checkSignatures)) = 0 ↔
    shell.authorised = true ∧ Takes shell layerId layer ∧ Verdict shell checkSignatures layer true := by
  rw [sweep_zero_iff]
  simp only [holding, List.mem_singleton, exists_eq_left, forall_eq]
  constructor
  · intro swept
    rcases swept with ⟨authorised, listed, each⟩
    exact ⟨authorised, each listed⟩
  · intro given
    rcases given with ⟨authorised, taken, verdict⟩
    exact ⟨authorised, taken.listed, fun _ => ⟨taken, verdict⟩⟩

theorem sweep_iff_alone : exitCode (shell.cmdVerify (argsAll checkSignatures)) = 0 ↔
    (∃ entry ∈ shell.stored.entries, shell.lists entry.2 = true) ∧
    ∀ entry ∈ shell.stored.entries, shell.lists entry.2 = true →
      exitCode ((holding shell entry.1 entry.2).cmdVerify (argsAll checkSignatures)) = 0 := by
  rw [sweep_zero_iff]
  simp only [alone_zero_iff]
  constructor
  · intro swept
    rcases swept with ⟨authorised, nonempty, each⟩
    exact ⟨nonempty, fun entry member listed => ⟨authorised, each entry member listed⟩⟩
  · intro single
    rcases single with ⟨⟨first, member, listed⟩, each⟩
    refine ⟨(each first member listed).1, ⟨first, member, listed⟩, ?_⟩
    exact fun entry member listed => (each entry member listed).2

theorem modes_agree_iff {path : String} (held : shell.stored.entries.lookup layerId = some layer) (named : path ≠ "")
    (file : shell.files path = .document layer) :
    (exitCode (shell.cmdVerify (argsById layerId checkSignatures)) =
        exitCode (shell.cmdVerify (argsPath path checkSignatures)) ∧
      exitCode ((holding shell layerId layer).cmdVerify (argsAll checkSignatures)) =
        exitCode (shell.cmdVerify (argsPath path checkSignatures))) ↔
    (shell.authorised = true →
      (Takes shell layerId layer → ¬ Verdict shell checkSignatures layer false) ∧
      (¬ Takes shell layerId layer → ¬ Verdict shell checkSignatures layer true)) := by
  have byId := @byId_zero_iff shell checkSignatures layer layerId held
  have byPath := @byPath_zero_iff shell checkSignatures layer path named file
  have apart : Verdict shell checkSignatures layer true → ¬ Verdict shell checkSignatures layer false := by
    intro passed failed
    cases passed.unique failed
  rw [exitCode_eq_iff, exitCode_eq_iff, byId, byPath, alone_zero_iff, Bool.exists_bool]
  by_cases authorised : shell.authorised = true
  · by_cases taken : Takes shell layerId layer
    · by_cases passed : Verdict shell checkSignatures layer true
      · simp [authorised, taken, passed, apart passed]
      · simp [authorised, taken, passed]
    · simp [authorised, taken]
  · simp [authorised]

end Agreement

section Signatures

def declaredSigner (signers : Signers) (metadata : Dict) : Option SigningBackend :=
  match metadata.get "merkle_signing_method" with
  | .null => some signers.cosign
  | declared => getBackendForMethod signers declared

/-- A signer was there, was asked, and took the stored signature for one of the payload of the declared format. -/
def Accepted (shell : Shell) (layer : Layer) (key : Option String) : Prop :=
  ∃ pubkeyPath signer payload findings result, key = some pubkeyPath ∧
    declaredSigner shell.signers layer.metadata = some signer ∧ signer.available = true ∧
    declaredPayload shell.hash layer.metadata = .ok (some (payload, findings)) ∧
    signer.verify payload (layer.metadata.get "merkle_root_signature") pubkeyPath = .ok result ∧ result.valid = true

/-- No key was given, or the tool is not there: the check ends in a warning. -/
def Unchecked (shell : Shell) (layer : Layer) (key : Option String) : Prop :=
  key = none ∨ ∃ signer, declaredSigner shell.signers layer.metadata = some signer ∧ signer.available = false

def Tolerated (outcome : Outcome (List IntegrityFinding)) : Prop :=
  ∃ findings, outcome = .ok findings ∧ ∀ finding ∈ findings, finding.severity ≠ .error

theorem declaredPayload_tolerated {H : HashFunction} {metadata : Dict} {payload : Bytes}
    {findings : List IntegrityFinding} (declared : declaredPayload H metadata = .ok (some (payload, findings))) :
    ∀ finding ∈ findings, finding.severity ≠ .error := by
  unfold declaredPayload at declared
  simp only at declared
  split_ifs at declared
  · cases declared
    simp
  · cases declared
    simp
  · cases declared
    simp
  · rcases bind_ok_iff.mp declared with ⟨bytes, -, answered⟩
    cases answered
    simp [legacySignatureFormat]
  · cases declared

theorem checkSignature_tolerated_iff {H : HashFunction} {metadata : Dict} {signer : SigningBackend}
    {pubkeyPath : String} : Tolerated (checkSignature H metadata signer pubkeyPath) ↔
    signer.available = false ∨ (signer.available = true ∧ ∃ payload findings result,
      declaredPayload H metadata = .ok (some (payload, findings)) ∧
      signer.verify payload (metadata.get "merkle_root_signature") pubkeyPath = .ok result ∧ result.valid = true) := by
  unfold checkSignature
  cases available : signer.available with
  | false => exact ⟨fun _ => Or.inl rfl, fun _ => ⟨_, rfl, by simp⟩⟩
  | true =>
    simp only [Bool.true_eq_false, if_false, false_or, true_and]
    constructor
    · intro tolerated
      rcases tolerated with ⟨findings, checked, harmless⟩
      rcases bind_ok_iff.mp checked with ⟨declared, format, checked⟩
      cases declared with
      | none =>
        cases checked
        simp at harmless
      | some found =>
        rcases found with ⟨payload, formatFindings⟩
        rcases bind_ok_iff.mp checked with ⟨result, verified, checked⟩
        refine ⟨payload, formatFindings, result, format, verified, ?_⟩
        cases valid : result.valid with
        | true => rfl
        | false =>
          rw [valid] at checked
          cases checked
          simp at harmless
    · intro given
      rcases given with ⟨payload, findings, result, format, verified, valid⟩
      refine ⟨findings, ?_, declaredPayload_tolerated format⟩
      refine bind_ok_iff.mpr ⟨some (payload, findings), format, bind_ok_iff.mpr ⟨result, verified, ?_⟩⟩
      rw [valid]
      rfl

theorem verifyMerkleSignature_tolerated_iff {H : HashFunction} {signers : Signers} {required : Bool} {layer : Layer}
    {key : Option String} (rooted : (layer.metadata.get "merkle_root").truthy = true)
    (signed : (layer.metadata.get "merkle_root_signature").truthy = true) :
    Tolerated (verifyMerkleSignature H signers required layer key none) ↔
      key = none ∨ ∃ pubkeyPath signer, key = some pubkeyPath ∧ declaredSigner signers layer.metadata = some signer ∧
        Tolerated (checkSignature H layer.metadata signer pubkeyPath) := by
  unfold verifyMerkleSignature declaredSigner
  simp only [signed, rooted, Bool.true_eq_false, if_false]
  cases key with
  | none => exact ⟨fun _ => Or.inl rfl, fun _ => ⟨_, rfl, by simp⟩⟩
  | some pubkeyPath =>
    simp only [reduceCtorEq, false_or, Option.some.injEq, exists_and_left, exists_eq_left']
    -- a method that is no text has no tool, and neither an error nor the finding about it passes
    cases declared : layer.metadata.get "merkle_signing_method" with
    | null => simp
    | arr items => simp [Tolerated, getBackendForMethod]
    | obj fields => simp [Tolerated, getBackendForMethod]
    | bool b => simp [Tolerated, getBackendForMethod, pure, Except.pure]
    | int n => simp [Tolerated, getBackendForMethod, pure, Except.pure]
    | float x => simp [Tolerated, getBackendForMethod, pure, Except.pure]
    | str method =>
      simp only
      cases getBackendForMethod signers (.str method) with
      | none => simp [Tolerated, pure, Except.pure]
      | some signer => simp

theorem tolerated_iff_status {outcome : Outcome (List IntegrityFinding)} :
    (do
      let findings ← outcome
      return if findings.any fun finding => finding.severity = .error then 1 else 0 : Outcome Nat) = .ok 0 ↔
    Tolerated outcome := by
  cases outcome with
  | error failure => simp [Tolerated, bind, Except.bind]
  | ok findings =>
    simp only [Tolerated, bind, Except.bind, pure, Except.pure, Except.ok.injEq, exists_eq_left']
    split
    · next faulty =>
      simp only [List.any_eq_true, decide_eq_true_eq] at faulty
      rcases faulty with ⟨finding, member, severe⟩
      constructor
      · intro status
        cases status
      · intro harmless
        exact absurd severe (harmless finding member)
    · next clean =>
      simp only [List.any_eq_true, decide_eq_true_eq, not_exists, not_and] at clean
      simpa using clean

theorem tolerated_iff {required : Bool} {key : Option String}
    (rooted : (layer.metadata.get "merkle_root").truthy = true)
    (signed : (layer.metadata.get "merkle_root_signature").truthy = true) :
    Tolerated (verifyMerkleSignature shell.hash shell.signers required layer key none) ↔
      Unchecked shell layer key ∨ Accepted shell layer key := by
  rw [verifyMerkleSignature_tolerated_iff rooted signed]
  constructor
  · intro tolerated
    rcases tolerated with none | ⟨pubkeyPath, signer, given, declared, tolerated⟩
    · exact Or.inl (Or.inl none)
    · rcases checkSignature_tolerated_iff.mp tolerated with missing | ⟨available, payload, findings, result, checked⟩
      · exact Or.inl (Or.inr ⟨signer, declared, missing⟩)
      · exact Or.inr ⟨pubkeyPath, signer, payload, findings, result, given, declared, available, checked⟩
  · intro given
    rcases given with (none | ⟨signer, declared, missing⟩) | accepted
    · exact Or.inl none
    · cases key with
      | none => exact Or.inl rfl
      | some pubkeyPath =>
        exact Or.inr ⟨pubkeyPath, signer, rfl, declared, checkSignature_tolerated_iff.mpr (Or.inl missing)⟩
    · rcases accepted with ⟨pubkeyPath, signer, payload, findings, result, given, declared, available, checked⟩
      refine Or.inr ⟨pubkeyPath, signer, given, declared, ?_⟩
      exact checkSignature_tolerated_iff.mpr (Or.inr ⟨available, payload, findings, result, checked⟩)

theorem cmdVerifySignature_zero_iff {layerPath : String} {key : Option String} :
    exitCode (shell.cmdVerifySignature layerPath key) = 0 ↔ shell.authorised = true ∧
      ∃ layer, shell.files layerPath = .document layer ∧ (layer.metadata.get "merkle_root").truthy = true ∧
        (layer.metadata.get "merkle_root_signature").truthy = true ∧
        (Unchecked shell layer key ∨ Accepted shell layer key) := by
  rw [exitCode_zero_iff]
  unfold Shell.cmdVerifySignature
  cases authorised : shell.authorised with
  | false => simp [pure, Except.pure]
  | true =>
    simp only [Bool.true_eq_false, if_false, true_and]
    cases shell.files layerPath with
    | absent => simp [pure, Except.pure]
    | unreadable => simp [pure, Except.pure]
    | document layer =>
      simp only [LayerFile.document.injEq, exists_eq_left']
      cases rooted : (layer.metadata.get "merkle_root").truthy with
      | false => simp [pure, Except.pure]
      | true =>
        cases signed : (layer.metadata.get "merkle_root_signature").truthy with
        | false => simp [pure, Except.pure]
        | true =>
          simp only [Bool.true_eq_false, if_false, true_and]
          rw [← tolerated_iff rooted signed, ← tolerated_iff_status]

theorem Unchecked.not_accepted {key : Option String} (unchecked : Unchecked shell layer key) :
    ¬ Accepted shell layer key := by
  intro accepted
  rcases accepted with ⟨pubkeyPath, signer, payload, findings, result, given, declared, available, -⟩
  rcases unchecked with none | ⟨other, alsoDeclared, missing⟩
  · rw [none] at given
    cases given
  · rw [declared] at alsoDeclared
    cases alsoDeclared
    rw [missing] at available
    cases available

theorem verifySignature_sound_iff (layerPath : String) (key : Option String) :
    (exitCode (shell.cmdVerifySignature layerPath key) = 0 →
      ∃ layer, shell.files layerPath = .document layer ∧ Accepted shell layer key) ↔
    ¬ (shell.authorised = true ∧ ∃ layer, shell.files layerPath = .document layer ∧
      (layer.metadata.get "merkle_root").truthy = true ∧
      (layer.metadata.get "merkle_root_signature").truthy = true ∧ Unchecked shell layer key) := by
  rw [cmdVerifySignature_zero_iff]
  constructor
  · intro sound defect
    rcases defect with ⟨authorised, layer, file, rooted, signed, unchecked⟩
    rcases sound ⟨authorised, layer, file, rooted, signed, Or.inl unchecked⟩ with ⟨checked, again, accepted⟩
    rw [file] at again
    cases again
    exact unchecked.not_accepted accepted
  · intro spared ended
    rcases ended with ⟨authorised, layer, file, rooted, signed, unchecked | accepted⟩
    · exact absurd ⟨authorised, layer, file, rooted, signed, unchecked⟩ spared
    · exact ⟨layer, file, accepted⟩

end Signatures

/-- Where a status of 0 can be relied on. The first two parts are about `verify`, for the layers it checked and for
    one document in three places, with what a sweep says of its layers; the last is about `verify-signature`. -/
theorem exit_status_trustworthy (shell : Shell) :
    (∀ args, (exitCode (shell.cmdVerify args) = 0 →
        ∀ layer, Checks shell args layer → Verdict shell args.checkSignatures layer true) ↔
      ¬ (shell.authorised = true ∧ ById args ∧ ∃ layer, shell.loadLayer (args.layerId.getD "") = .ok layer ∧
        Verdict shell args.checkSignatures layer false)) ∧
    (∀ checkSignatures, exitCode (shell.cmdVerify (argsAll checkSignatures)) = 0 ↔
      (∃ entry ∈ shell.stored.entries, shell.lists entry.2 = true) ∧
      ∀ entry ∈ shell.stored.entries, shell.lists entry.2 = true →
        exitCode ((holding shell entry.1 entry.2).cmdVerify (argsAll checkSignatures)) = 0) ∧
    (∀ layerId layer path checkSignatures, shell.stored.entries.lookup layerId = some layer → path ≠ "" →
      shell.files path = .document layer →
      ((exitCode (shell.cmdVerify (argsById layerId checkSignatures)) =
          exitCode (shell.cmdVerify (argsPath path checkSignatures)) ∧
        exitCode ((holding shell layerId layer).cmdVerify (argsAll checkSignatures)) =
          exitCode (shell.cmdVerify (argsPath path checkSignatures))) ↔
      (shell.authorised = true →
        (Takes shell layerId layer → ¬ Verdict shell checkSignatures layer false) ∧
        (¬ Takes shell layerId layer → ¬ Verdict shell checkSignatures layer true)))) ∧
    (∀ layerPath key, (exitCode (shell.cmdVerifySignature layerPath key) = 0 →
        ∃ layer, shell.files layerPath = .document layer ∧ Accepted shell layer key) ↔
      ¬ (shell.authorised = true ∧ ∃ layer, shell.files layerPath = .document layer ∧
        (layer.metadata.get "merkle_root").truthy = true ∧
        (layer.metadata.get "merkle_root_signature").truthy = true ∧ Unchecked shell layer key)) := by
  refine ⟨fun args => verify_sound_iff args, fun checkSignatures => sweep_iff_alone, ?_, ?_⟩
  · intro layerId layer path checkSignatures held named file
    exact modes_agree_iff held named file
  · intro layerPath key
    exact verifySignature_sound_iff layerPath key

def forgedLayer : Layer :=
  let rooted := oneClaim.metadata.set "merkle_root" (.str (hex (List.replicate 32 0)))
  { oneClaim with metadata := rooted.set "merkle_root_signature" (.str "Zm9yZ2Vk") }

def forgedShell : Shell where
  toEnv := referenceEnv
  environ := fun _ => none
  authorised := true
  stored := ⟨[("acme", forgedLayer)], by simp⟩
  files := fun path => if path = "acme.json" then .document forgedLayer else .absent

theorem exit_status_trustworthy_forged :
    forgedShell.stored.entries.lookup "acme" = some forgedLayer ∧
    forgedShell.files "acme.json" = .document forgedLayer ∧
    ((exitCode (forgedShell.cmdVerify (argsById "acme" false)) =
        exitCode (forgedShell.cmdVerify (argsPath "acme.json" false)) ∧
      exitCode ((holding forgedShell "acme" forgedLayer).cmdVerify (argsAll false)) =
        exitCode (forgedShell.cmdVerify (argsPath "acme.json" false))) ↔
    (forgedShell.authorised = true →
      (Takes forgedShell "acme" forgedLayer → ¬ Verdict forgedShell false forgedLayer false) ∧
      (¬ Takes forgedShell "acme" forgedLayer → ¬ Verdict forgedShell false forgedLayer true))) :=
  ⟨rfl, rfl, (exit_status_trustworthy forgedShell).2.2.1 "acme" forgedLayer "acme.json" false rfl (by decide) rfl⟩

/-- By its id the forged layer leaves 0 where the two other modes leave 1, and with no key given its signature is
    reported as verified. -/
theorem forged_layer_exits_zero :
    exitCode (forgedShell.cmdVerify (argsById "acme" false)) = 0 ∧
    Checks forgedShell (argsById "acme" false) forgedLayer ∧ ¬ Verdict forgedShell false forgedLayer true ∧
    exitCode (forgedShell.cmdVerify (argsPath "acme.json" false)) = 1 ∧
    exitCode (forgedShell.cmdVerify (argsAll false)) = 1 ∧
    exitCode (forgedShell.cmdVerifySignature "acme.json" none) = 0 ∧
    ¬ ∃ layer, forgedShell.files "acme.json" = .document layer ∧ Accepted forgedShell layer none := by
  have statuses : exitCode (forgedShell.cmdVerify (argsById "acme" false)) = 0 ∧
      exitCode (forgedShell.cmdVerify (argsPath "acme.json" false)) = 1 ∧
      exitCode (forgedShell.cmdVerify (argsAll false)) = 1 ∧
      exitCode (forgedShell.cmdVerifySignature "acme.json" none) = 0 := by
    decide +kernel
  rcases statuses with ⟨byId, byPath, byAll, signature⟩
  have stored : forgedShell.stored.entries.lookup "acme" = some forgedLayer := rfl
  have taken : Takes forgedShell "acme" forgedLayer := ⟨by decide, by decide +kernel, by decide +kernel⟩
  have file : forgedShell.files "acme.json" = .document forgedLayer := rfl
  refine ⟨byId, ⟨by decide, (loadLayer_iff stored).mpr ⟨taken, rfl⟩⟩, ?_, byPath, byAll, signature, ?_⟩
  · intro passed
    have zero := (byPath_zero_iff (by decide) file).mpr ⟨rfl, passed⟩
    rw [byPath] at zero
    cases zero
  · intro given
    rcases given with ⟨layer, -, accepted⟩
    rcases accepted with ⟨pubkeyPath, signer, payload, findings, result, keyed, -⟩
    cases keyed

end LedgerProof
