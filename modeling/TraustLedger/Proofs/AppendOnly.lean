import TraustLedger.Proofs.WrittenLayers
import TraustLedger.Library.Logs

namespace LedgerProof

open Hashing Python Runs Logs LedgerModel

variable {H : HashFunction} {env : Env}

/-- An event as it stood, or with the fingerprint it had none of. -/
structure Identified (old new : Dict) : Prop where
  frame : ∀ key, key ≠ "fingerprint" → key ≠ "fingerprint_algo" → new.lookup key = old.lookup key
  once : (old.get "fingerprint").truthy = true → new = old

theorem Identified.refl (event : Dict) : Identified event event := ⟨fun _ _ _ => rfl, fun _ => rfl⟩

theorem Identified.trans {a b c : Dict} (first : Identified a b) (second : Identified b c) : Identified a c := by
  refine ⟨fun key notPrint notAlgo => ?_, fun held => ?_⟩
  · exact (second.frame key notPrint notAlgo).trans (first.frame key notPrint notAlgo)
  · have same := first.once held
    subst same
    exact second.once held

theorem Identified.sameRestatement {old new : Dict} (identified : Identified old new) : SameRestatement old new := by
  refine ⟨?_, ?_⟩
  · rw [Dict.get, Dict.get, identified.frame _ (by decide) (by decide)]
  · rw [Dict.get, Dict.get, identified.frame _ (by decide) (by decide)]

theorem identified_attachIdentity (index : List (Json × Json)) (event : Dict) :
    Identified event (attachIdentity index event).1 := by
  unfold attachIdentity
  split
  · exact .refl event
  · next none =>
    simp only
    split
    · refine ⟨fun key notPrint notAlgo => ?_, fun held => absurd held none⟩
      rw [Dict.lookup_set, if_neg notAlgo, Dict.lookup_set, if_neg notPrint]
    · exact .refl event

def Prepared (H : HashFunction) (event : Dict) : Prop := ∃ body id, prepareEvent H body = .ok (event, id)

theorem grows_offer {events : List Dict} {event prepared : Dict} {id : String}
    (preparation : prepareEvent H event = .ok (prepared, id)) :
    Grows Identified (Prepared H) events (if holdsId events id then events else events ++ [prepared]) := by
  split
  · exact .refl Identified.refl _
  · apply Grows.append Identified.refl
    intro added member
    rw [List.mem_singleton.mp member]
    exact ⟨event, id, preparation⟩

theorem grows_appendOne {layer appended : Layer} {event : Dict} {id : String}
    (accepted : appendOne H layer event = .ok (appended, id)) :
    Grows Identified (Prepared H) layer.events appended.events := by
  obtain ⟨prepared, preparation, rfl⟩ := appendOne_ok accepted
  exact grows_offer preparation

theorem grows_appendMany {layer appended : Layer} {events : List Dict} {ids : List String}
    (accepted : appendMany H layer events = .ok (appended, ids)) :
    Grows Identified (Prepared H) layer.events appended.events := by
  obtain ⟨added, rfl, offers⟩ := appendMany_ok accepted
  apply Grows.append Identified.refl
  intro event member
  obtain ⟨body, -, id, preparation⟩ := offers event member
  exact ⟨body, id, preparation⟩

theorem Draft.grows {layer draft : Layer} {call : Call} {moment : Moment}
    (drafted : Draft env layer call moment draft) :
    Grows Identified (Prepared env.hash) layer.events draft.events := by
  cases drafted with
  | restate gated appending =>
    obtain ⟨prepared, preparation, events, -⟩ := appendRestatement_ok appending
    rw [events]
    exact grows_offer preparation
  | patch => exact .refl Identified.refl _
  | submitEvent submitted appending => exact grows_appendOne appending
  | submitBatch appending =>
    have grown := grows_appendMany appending
    exact grown
  | stampIdentities =>
    apply Grows.of_same
    rw [List.forall₂_map_right_iff]
    exact List.forall₂_same.mpr fun event _ => identified_attachIdentity _ event
  | sign => exact .refl Identified.refl _

/-- What an accepted call does to the log, whichever door it came through. -/
theorem step_grows {layer next : Layer} {call : Call} (accepted : step env layer call = .ok next) :
    Grows Identified (Prepared env.hash) layer.events next.events := by
  cases step_written accepted with
  | finalized drafted finalizing =>
    rw [(finalizeLayer_ok finalizing).1]
    exact drafted.grows
  | appended appending => exact grows_appendMany appending
  | endpoint signing =>
    rw [(signLayer_ok signing).1]
    exact .refl Identified.refl _
  | queued _ events =>
    rw [events]
    exact .refl Identified.refl _

theorem run_grows (layer : Layer) (calls : List Call) :
    Grows Identified (fun _ => True) layer.events (run (step env) layer calls).events := by
  apply @run_preserves _ _ _ (step env) (fun s => Grows Identified (fun _ => True) layer.events s.events)
  · intro s call next grown accepted
    have more := (step_grows accepted).mono fun _ _ => trivial
    exact Grows.trans (fun _ _ _ first second => first.trans second) (fun _ _ _ _ => trivial) grown more
  · exact .refl Identified.refl _

/-- The log after some calls stands, entry for entry, at the start of the log after any further calls: an event
    differs at most by the fingerprint it lacked, and one with a fingerprint does not differ. -/
theorem log_append_only (env : Env) (layer : Layer) (calls more : List Call) :
    Grows Identified (fun _ => True) (run (step env) layer calls).events
        (run (step env) layer (calls ++ more)).events ∧
      ∀ (index : Nat) (event : Dict), (run (step env) layer calls).events[index]? = some event →
        (event.get "fingerprint").truthy = true →
        (run (step env) layer (calls ++ more)).events[index]? = some event := by
  have split : run (step env) layer (calls ++ more) = run (step env) (run (step env) layer calls) more := by
    simp [run]
  rw [split]
  have grown := @run_grows env (run (step env) layer calls) more
  refine ⟨grown, fun index event held stored => ?_⟩
  obtain ⟨later, found, identified⟩ := grown.getElem? held
  rwa [identified.once stored] at found

end LedgerProof
