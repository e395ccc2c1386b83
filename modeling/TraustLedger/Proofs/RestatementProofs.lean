import TraustLedger.Integrity.Ledger
import TraustLedger.Library.Deltas

namespace LedgerProof

open Python Runs LedgerModel

def deltaOf (after : Dict) : Deltas.Delta String Json :=
  fun key => (after.lookup key).map fun value => if value = .null then none else some value

theorem lookup_applyDelta (current after : Dict) (key : String) :
    (applyDelta current after).lookup key = Deltas.apply (fun k => current.lookup k) (deltaOf after) key := by
  induction after with
  | nil => simp [applyDelta, deltaOf, Deltas.apply]
  | cons entry rest ih =>
    simp only [applyDelta, List.foldr_cons, deltaOf, Deltas.apply, Dict.lookup_cons_ite] at ih ⊢
    by_cases same : key = entry.1
    · by_cases gone : entry.2 = .null <;> simp [same, gone]
    · by_cases gone : entry.2 = .null <;> simp [same, gone, ih]

def entriesOf : Json → String → Option Json
  | .obj fields => fun key => fields.lookup key
  | _ => fun _ => none

@[simp] theorem entriesOf_obj (fields : Dict) (key : String) : entriesOf (.obj fields) key = fields.lookup key := rfl

theorem entriesOf_mergeDelta {current after : Dict} :
    entriesOf (mergeDelta (.obj current) (.obj after)) = Deltas.apply (entriesOf (.obj current)) (deltaOf after) := by
  funext key
  exact lookup_applyDelta current after key

theorem mergeDelta_flat (current : Json) {after : Json} (flat : after.isObj = false) :
    mergeDelta current after = after := by
  cases current with
  | obj fields => cases after with
    | obj entries => cases flat
    | _ => rfl
  | _ => rfl

theorem mergeDelta_onto_flat {current : Json} (flat : current.isObj = false) (after : Json) :
    mergeDelta current after = after := by
  cases current with
  | obj fields => cases flat
  | _ => rfl

theorem isObj_mergeDelta (current : Json) (delta : Dict) : (mergeDelta current (.obj delta)).isObj = true := by
  cases current <;> rfl

theorem entriesOf_mergeDelta_some {current after now : Json} {key : String}
    (held : entriesOf (mergeDelta current after) key = some now) :
    entriesOf after key = some now ∨ entriesOf current key = some now := by
  by_cases flat : current.isObj = false ∨ after.isObj = false
  · have replaced : mergeDelta current after = after := by
      rcases flat with flat | flat
      · exact mergeDelta_onto_flat flat after
      · exact mergeDelta_flat current flat
    rw [replaced] at held
    exact Or.inl held
  · cases current with
    | obj fields => cases after with
      | obj entries =>
        rw [entriesOf_mergeDelta, Deltas.apply, deltaOf] at held
        cases named : entries.lookup key with
        | none =>
          rw [named] at held
          exact Or.inr held
        | some given =>
          rw [named] at held
          by_cases gone : given = .null
          · simp [gone] at held
          · simp only [Option.map_some, gone, if_false, Option.getD_some, Option.some.injEq] at held
            exact Or.inl (held ▸ named)
      | _ => exact absurd (Or.inr rfl) flat
    | _ => exact absurd (Or.inl rfl) flat

def Readable (events : List Dict) : Prop := ∀ event ∈ events, ∃ restates, isRestatement event = .ok restates

theorem Readable.append {events more : List Dict} (readable : Readable events) (readableMore : Readable more) :
    Readable (events ++ more) := by
  intro event member
  rcases List.mem_append.mp member with member | member
  · exact readable event member
  · exact readableMore event member

def restates (event : Dict) : Bool :=
  match isRestatement event with
  | .ok answer => answer
  | .error _ => false

theorem restates_iff {event : Dict} : restates event = true ↔ isRestatement event = .ok true := by
  unfold restates
  cases outcome : isRestatement event <;> simp

def chainOf (events : List Dict) (target : String) : List Dict :=
  ((events.filter restates).map restatementBlock).filter fun block =>
    Json.pyEq (block.get "target") (.str target)

theorem restatements_readable {events : List Dict} (readable : Readable events) :
    restatements events = .ok ((events.filter restates).map restatementBlock) := by
  induction events with
  | nil => rfl
  | cons event rest ih =>
    obtain ⟨answer, outcome⟩ := readable event (by simp)
    have known : restates event = answer := by simp [restates, outcome]
    rw [restatements, outcome, ih fun e member => readable e (List.mem_cons_of_mem _ member)]
    cases answer <;> simp [known, bind, Except.bind, pure, Except.pure]

theorem readable_of_restatements {events : List Dict} {blocks : List Dict}
    (read : restatements events = .ok blocks) : Readable events := by
  induction events generalizing blocks with
  | nil =>
    intro event member
    cases member
  | cons event rest ih =>
    rw [restatements] at read
    obtain ⟨answer, outcome, read⟩ := bind_ok_iff.mp read
    obtain ⟨later, readLater, -⟩ := bind_ok_iff.mp read
    intro e member
    rcases List.mem_cons.mp member with rfl | member
    · exact ⟨answer, outcome⟩
    · exact ih readLater e member

theorem restatementsFor_readable {events : List Dict} (readable : Readable events) (target : String) :
    restatementsFor events target = .ok (chainOf events target) := by
  rw [restatementsFor, restatements_readable readable]
  rfl

theorem restatementsFor_ok {events : List Dict} {target : String} {chain : List Dict}
    (read : restatementsFor events target = .ok chain) : Readable events ∧ chain = chainOf events target := by
  obtain ⟨blocks, readBlocks, -⟩ := bind_ok_iff.mp read
  have readable := readable_of_restatements readBlocks
  rw [restatementsFor_readable readable] at read
  exact ⟨readable, (Except.ok.inj read).symm⟩

theorem chainOf_append (events more : List Dict) (target : String) :
    chainOf (events ++ more) target = chainOf events target ++ chainOf more target := by
  simp [chainOf]

def terminalOf (events : List Dict) (target : String) : Option Json :=
  if (chainOf events target).isEmpty then none else some (replay (chainOf events target))

theorem terminalValue_readable {events : List Dict} (readable : Readable events) (target : String) :
    terminalValue events target = .ok (terminalOf events target) := by
  rw [terminalValue, restatementsFor_readable readable]
  rfl

theorem replay_snoc (chain : List Dict) (block : Dict) :
    replay (chain ++ [block]) =
      mergeDelta (if (replay chain).isObj then replay chain else .null) (block.get "after") := by
  rw [replay, List.foldl_append]
  rfl

def readsAs (held : Option Json) (value : Json) : Prop := Json.pyEq (held.getD .null) value = true

/-- A stored value that the verifier finds nothing wrong with. -/
def Agrees (actual : Json) : Option Json → Prop
  | none => True
  | some (.obj expected) => Deltas.Pinned readsAs (entriesOf (.obj expected)) (entriesOf actual) ∧
      (expected ≠ [] → actual.isObj = true)
  | some expected => Json.pyEq actual expected = true

theorem agrees_self (value : Json) : Agrees value (some value) := by
  cases value with
  | obj fields =>
    refine ⟨fun key held found => ?_, fun _ => rfl⟩
    rw [readsAs, found]
    exact Json.pyEq_self held
  | _ => exact Json.pyEq_self _

theorem driftedKeys_nil {expected : Dict} {actual : Json} :
    driftedKeys expected actual = [] ↔ Agrees actual (some (.obj expected)) := by
  simp only [driftedKeys, List.map_eq_nil_iff, List.filter_eq_nil_iff, Agrees, Deltas.Pinned]
  constructor
  · intro clean
    constructor
    · intro key value held
      have entry := clean (key, value) (Dict.mem_items.mpr held)
      cases actual with
      | obj fields => simpa [readsAs, entriesOf, Dict.get] using entry
      | _ => simp at entry
    · intro nonempty
      obtain ⟨⟨key, value⟩, rest, rfl⟩ := List.exists_cons_of_ne_nil nonempty
      have entry := clean _ (List.mem_map_of_mem (List.mem_cons_self))
      cases actual with
      | obj fields => rfl
      | _ => simp at entry
  · rintro ⟨pinned, shape⟩ ⟨key, value⟩ member
    have held := Dict.mem_items.mp member
    have reads := pinned key value held
    have nonempty : expected ≠ [] := by
      rintro rfl
      simp at held
    cases actual with
    | obj fields => simpa [readsAs, entriesOf, Dict.get] using reads
    | _ => simp [Json.isObj] at shape; exact absurd shape nonempty

theorem restatedFindings_nil {field : String} {actual : Json} {terminal : Option Json} :
    restatedFindings field actual terminal = [] ↔ Agrees actual terminal := by
  cases terminal with
  | none => simp [restatedFindings, Agrees]
  | some expected =>
    cases expected with
    | obj fields =>
      rw [← driftedKeys_nil]
      unfold restatedFindings
      simp only [List.isEmpty_iff]
      split <;> simp_all
    | _ =>
      simp only [restatedFindings, Agrees]
      split <;> simp_all

theorem verifyRestatedMetadata_readable {layer : Layer} (readable : Readable layer.events) :
    verifyRestatedMetadata layer = .ok (signedMetadataFields.flatMap fun field =>
      restatedFindings field (layer.metadata.get field) (terminalOf layer.events field)) := by
  simp [verifyRestatedMetadata, signedMetadataFields, terminalValue_readable readable, bind, Except.bind, pure,
    Except.pure]

theorem readable_of_verify {layer : Layer} {findings : List IntegrityFinding}
    (verified : verifyRestatedMetadata layer = .ok findings) : Readable layer.events := by
  obtain ⟨perField, verified, -⟩ := bind_ok_iff.mp verified
  simp only [signedMetadataFields, List.mapM_cons] at verified
  obtain ⟨first, verified, -⟩ := bind_ok_iff.mp verified
  obtain ⟨terminal, read, -⟩ := bind_ok_iff.mp verified
  obtain ⟨chain, read, -⟩ := bind_ok_iff.mp read
  exact (restatementsFor_ok read).1

theorem verifyRestatedMetadata_nil_iff {layer : Layer} :
    verifyRestatedMetadata layer = .ok [] ↔ Readable layer.events ∧
      ∀ field ∈ signedMetadataFields, Agrees (layer.metadata.get field) (terminalOf layer.events field) := by
  constructor
  · intro clean
    have readable := readable_of_verify clean
    rw [verifyRestatedMetadata_readable readable, Except.ok.injEq, List.flatMap_eq_nil_iff] at clean
    exact ⟨readable, fun field member => restatedFindings_nil.mp (clean field member)⟩
  · rintro ⟨readable, agrees⟩
    rw [verifyRestatedMetadata_readable readable, Except.ok.injEq, List.flatMap_eq_nil_iff]
    exact fun field member => restatedFindings_nil.mpr (agrees field member)

def givenBy (block : Dict) : String → Option Json := entriesOf (block.get "after")

def lastGiven (key : String) : List Dict → Option Json
  | [] => none
  | block :: later => (lastGiven key later).or (givenBy block key)

def deltasOf (chain : List Dict) : List (Deltas.Delta String Json) :=
  chain.map fun block => match block.get "after" with
    | .obj after => deltaOf after
    | _ => fun _ => none

theorem lastNaming_deltasOf (chain : List Dict) (key : String) :
    Deltas.lastNaming (deltasOf chain) key =
      (lastGiven key chain).map fun value => if value = .null then none else some value := by
  induction chain with
  | nil => rfl
  | cons block later ih =>
    rw [deltasOf, List.map_cons, Deltas.lastNaming_cons, ← deltasOf, ih, lastGiven]
    unfold givenBy
    cases lastGiven key later with
    | some value => rfl
    | none =>
      cases block.get "after" with
      | obj after => rfl
      | _ => rfl

theorem replay_objects {first : Dict} {later : List Dict} {after : Dict}
    (head : first.get "after" = .obj after) (objects : ∀ block ∈ later, (block.get "after").isObj = true) :
    ∃ expected, replay (first :: later) = .obj expected ∧
      entriesOf (.obj expected) = (deltasOf later).foldl Deltas.apply (entriesOf (.obj after)) := by
  induction later using List.reverseRecOn with
  | nil => exact ⟨after, by simp [replay, mergeDelta, head, Json.isObj], rfl⟩
  | append_singleton init block ih =>
    obtain ⟨expected, replayed, entries⟩ := ih fun b member => objects b (List.mem_append_left _ member)
    have shape := objects block (by simp)
    rw [← List.cons_append, replay_snoc, replayed, deltasOf, List.map_append, List.foldl_append, ← deltasOf,
      ← entries]
    cases latest : block.get "after" with
    | obj delta =>
      refine ⟨applyDelta expected delta, by simp [Json.isObj, mergeDelta], ?_⟩
      simpa [latest, mergeDelta] using @entriesOf_mergeDelta expected delta
    | _ => simp [latest, Json.isObj] at shape

/-- A replayed chain drops a key that a block after the first deleted, and keeps a null of the first. -/
theorem entries_replay {first : Dict} {later : List Dict} {after : Dict}
    (head : first.get "after" = .obj after) (objects : ∀ block ∈ later, (block.get "after").isObj = true) :
    ∃ expected, replay (first :: later) = .obj expected ∧ ∀ key, entriesOf (.obj expected) key =
      match lastGiven key later with
      | some value => if value = .null then none else some value
      | none => givenBy first key := by
  obtain ⟨expected, replayed, entries⟩ := replay_objects head objects
  refine ⟨expected, replayed, fun key => ?_⟩
  rw [entries, Deltas.foldl_apply, lastNaming_deltasOf]
  cases lastGiven key later with
  | some value => simp
  | none => simp [givenBy, head]

end LedgerProof
