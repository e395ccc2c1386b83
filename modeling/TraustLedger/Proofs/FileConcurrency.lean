import TraustLedger.Backends.FileClients
import TraustLedger.Proofs.SignedLayers

namespace LedgerProof

open Hashing Python Runs Logs SharedFiles LedgerModel

variable {H : HashFunction} {env : Env}

def SameEvent (event held : Dict) : Prop :=
  ∀ key, key ≠ "fingerprint" → key ≠ "fingerprint_algo" → held.lookup key = event.lookup key

def Includes (old new : Layer) : Prop := ∀ event ∈ old.events, ∃ held ∈ new.events, SameEvent event held

theorem Includes.of_events {old new : Layer} (events : new.events = old.events) : Includes old new := by
  intro event member
  rw [← events] at member
  exact ⟨event, member, fun _ _ _ => rfl⟩

theorem Includes.refl (layer : Layer) : Includes layer layer := .of_events rfl

theorem Includes.trans (first second third : Layer) (early : Includes first second) (late : Includes second third) :
    Includes first third := by
  intro event member
  obtain ⟨held, within, same⟩ := early event member
  obtain ⟨later, final, again⟩ := late held within
  refine ⟨later, final, fun key notPrint notAlgo => ?_⟩
  exact (again key notPrint notAlgo).trans (same key notPrint notAlgo)

theorem Includes.of_grows {old new : Layer} {P : Dict → Prop} (grows : Grows Identified P old.events new.events) :
    Includes old new := by
  intro event member
  obtain ⟨index, held⟩ := List.mem_iff_getElem?.mp member
  obtain ⟨later, found, identified⟩ := grows.getElem? held
  exact ⟨later, List.mem_of_getElem? found, identified.frame⟩

theorem Includes.holdsId {old new : Layer} (included : Includes old new) {id : String}
    (held : holdsId old.events id = true) : holdsId new.events id = true := by
  obtain ⟨event, member, same⟩ := List.any_eq_true.mp held
  obtain ⟨later, found, sameEvent⟩ := included event member
  refine List.any_eq_true.mpr ⟨later, found, ?_⟩
  rw [Dict.get, sameEvent _ (by decide) (by decide)]
  exact same

theorem holdsId_snoc {event prepared : Dict} {id : String} (events : List Dict)
    (preparation : prepareEvent H event = .ok (prepared, id)) : holdsId (events ++ [prepared]) id = true := by
  refine List.any_eq_true.mpr ⟨prepared, by simp, ?_⟩
  rw [Dict.get, prepareEvent_lookup preparation (by decide)]
  exact Json.pyEq_self _

theorem appendOne_holds {layer appended : Layer} {event : Dict} {id : String}
    (accepted : appendOne H layer event = .ok (appended, id)) :
    canonicalId H event = .ok id ∧ holdsId appended.events id = true := by
  obtain ⟨prepared, preparation, rfl⟩ := appendOne_ok accepted
  refine ⟨(prepareEvent_ok preparation).2.1, ?_⟩
  simp only
  split
  · next held => exact held
  · exact holdsId_snoc _ preparation

theorem appendMany_holds {layer appended : Layer} {events : List Dict} {ids : List String}
    (accepted : appendMany H layer events = .ok (appended, ids)) {event : Dict} (asked : event ∈ events) :
    ∃ id, canonicalId H event = .ok id ∧ holdsId appended.events id = true := by
  induction events generalizing layer ids with
  | nil => cases asked
  | cons first rest ih =>
    rw [appendMany] at accepted
    obtain ⟨⟨prepared, id⟩, preparation, walked⟩ := bind_ok_iff.mp accepted
    have computed := (prepareEvent_ok preparation).2.1
    simp only at walked
    split at walked
    · next held =>
      rcases List.mem_cons.mp asked with rfl | later
      · exact ⟨id, computed, (Includes.of_grows (grows_appendMany walked)).holdsId held⟩
      · exact ih walked later
    · obtain ⟨⟨longer, more⟩, appending, walked⟩ := bind_ok_iff.mp walked
      cases walked
      rcases List.mem_cons.mp asked with rfl | later
      · have held := holdsId_snoc layer.events preparation
        exact ⟨id, computed, (Includes.of_grows (grows_appendMany appending)).holdsId held⟩
      · exact ih appending later

theorem cmdSign_events {moment : Moment} {environ : Environ} {args : SignArgs} {layer signed : Layer}
    (accepted : cmdSign env moment environ args layer = .ok signed) : signed.events = layer.events := by
  unfold cmdSign at accepted
  replace accepted := gate_passed accepted
  obtain ⟨⟨result, attempt⟩, signing, accepted⟩ := bind_ok_iff.mp accepted
  replace accepted := gate_passed accepted
  cases accepted
  exact (signLayer_ok signing).1

theorem program_includes (client : Client) {read next : Layer}
    (applied : (client.program env).apply read = .ok next) : Includes read next := by
  cases client with
  | appendEvent layerId event =>
    obtain ⟨id, mutated⟩ := map_fst_ok applied
    exact .of_grows (grows_appendOne (fileMutate_ok.mp mutated).2.1)
  | appendEvents layerId events =>
    obtain ⟨ids, mutated⟩ := map_fst_ok applied
    exact .of_grows (grows_appendMany (fileMutate_ok.mp mutated).2.1)
  | door tools call => exact .of_grows (step_grows applied)
  | cmdSign tools moment environ args => exact .of_events (cmdSign_events applied)

theorem program_appends (client : Client) {read next : Layer}
    (applied : (client.program env).apply read = .ok next) {event : Dict} (asked : event ∈ client.appended) :
    ∃ id, canonicalId env.hash event = .ok id ∧ holdsId next.events id = true := by
  cases client with
  | appendEvent layerId body =>
    obtain ⟨id, mutated⟩ := map_fst_ok applied
    cases List.mem_singleton.mp asked
    exact ⟨id, appendOne_holds (fileMutate_ok.mp mutated).2.1⟩
  | appendEvents layerId events =>
    obtain ⟨ids, mutated⟩ := map_fst_ok applied
    exact appendMany_holds (fileMutate_ok.mp mutated).2.1 asked
  | door tools call => cases asked
  | cmdSign tools moment environ args => cases asked

/-- Every `cmd_sign` that stores finds no event in the file that was not in the document it read. -/
def SignsWhatItRead {ι : Type} [DecidableEq ι] (env : Env) (clients : ι → Client) (file : Layer)
    (schedule : List ι) : Prop :=
  Along (advance fun client => (clients client).program env)
    (OverwritesNothing Includes fun client => (clients client).program env) (World.start file) schedule

/-- Any number of clients, in any order of their steps: what a client stored stays in the file, with the id of
    each event it was asked to append. -/
theorem committed_events_kept {ι : Type} [DecidableEq ι] (env : Env) (clients : ι → Client) (file committed : Layer)
    (schedule : List ι) (signs : SignsWhatItRead env clients file schedule) (client : ι)
    (returned : ((interleaved env clients file schedule).phase client).result = some committed) :
    (∃ read, ((clients client).program env).apply read = .ok committed) ∧
      Includes committed (interleaved env clients file schedule).file ∧
      ∀ event ∈ (clients client).appended, ∃ id, canonicalId env.hash event = .ok id ∧
        holdsId (interleaved env clients file schedule).file.events id = true := by
  obtain ⟨⟨read, applied⟩, kept⟩ := finished_kept Includes.refl Includes.trans
    (fun client _ _ => program_includes (clients client)) signs returned
  refine ⟨⟨read, applied⟩, kept, fun event asked => ?_⟩
  obtain ⟨id, computed, held⟩ := program_appends (clients client) applied asked
  exact ⟨id, computed, kept.holdsId held⟩

def signKey : SignArgs := ⟨.keypair, some "ledger.key", false⟩

def signAndAppend : Bool → Client
  | true => .cmdSign spellingTools unsigned (fun _ => none) signKey
  | false => .appendEvent "acme" scanEvent

def signAfterWrite : List Bool := [false, false, false, true, false, true, true, true]

def FindsWhatItRead (world : World Bool Layer) (client : Bool) : Prop :=
  match world.phase client with
  | .writing read _ => world.file.events = read.events
  | _ => True

instance (world : World Bool Layer) (client : Bool) : Decidable (FindsWhatItRead world client) := by
  unfold FindsWhatItRead
  split <;> infer_instance

theorem committed_events_kept_scan : SignsWhatItRead referenceEnv signAndAppend oneClaim signAfterWrite ∧
    ∃ committed, ((interleaved referenceEnv signAndAppend oneClaim signAfterWrite).phase false).result =
        some committed ∧
      Includes committed (interleaved referenceEnv signAndAppend oneClaim signAfterWrite).file ∧
      ∃ id, canonicalId referenceEnv.hash scanEvent = .ok id ∧
        holdsId (interleaved referenceEnv signAndAppend oneClaim signAfterWrite).file.events id = true := by
  have finds : Along (advance fun client => (signAndAppend client).program referenceEnv) FindsWhatItRead
      (World.start oneClaim) signAfterWrite := by
    decide +kernel
  have signs : SignsWhatItRead referenceEnv signAndAppend oneClaim signAfterWrite := by
    apply finds.mono
    intro world client found unlocked read next writing
    rw [FindsWhatItRead, writing] at found
    exact .of_events found.symm
  have returned : (((interleaved referenceEnv signAndAppend oneClaim signAfterWrite).phase false).result).isSome =
      true := by
    decide +kernel
  obtain ⟨committed, stored⟩ := Option.isSome_iff_exists.mp returned
  obtain ⟨-, kept, holds⟩ := committed_events_kept referenceEnv signAndAppend oneClaim committed signAfterWrite signs
    false stored
  have asked : scanEvent ∈ (signAndAppend false).appended := List.mem_cons_self
  exact ⟨signs, committed, stored, kept, holds scanEvent asked⟩

def signAcrossAppend : List Bool := [true, false, false, false, false, true, true, true]

/-- Both clients return success, and the appended event is gone. -/
theorem appended_event_lost :
    ((interleaved referenceEnv signAndAppend oneClaim signAcrossAppend).phase true).result.isSome = true ∧
      ∃ committed, ((interleaved referenceEnv signAndAppend oneClaim signAcrossAppend).phase false).result =
          some committed ∧
        committed.events ≠ [] ∧
        (interleaved referenceEnv signAndAppend oneClaim signAcrossAppend).file.events = [] ∧
        ¬ Includes committed (interleaved referenceEnv signAndAppend oneClaim signAcrossAppend).file := by
  have wrote : ((interleaved referenceEnv signAndAppend oneClaim signAcrossAppend).phase false).result.any
      (fun committed => decide (committed.events ≠ [])) = true := by
    decide +kernel
  have gone : (interleaved referenceEnv signAndAppend oneClaim signAcrossAppend).file.events = [] := by
    decide +kernel
  obtain ⟨committed, stored, held⟩ := (Option.any_eq_true _ _).mp wrote
  have appended := of_decide_eq_true held
  refine ⟨by decide +kernel, committed, stored, appended, gone, fun included => ?_⟩
  obtain ⟨event, member⟩ := List.exists_mem_of_ne_nil _ appended
  obtain ⟨held, within, -⟩ := included event member
  rw [gone] at within
  cases within

end LedgerProof
