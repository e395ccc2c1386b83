import TraustLedger.Proofs.EntryProofs
import TraustLedger.Proofs.ReferenceEnv

namespace LedgerProof

open Hashing Python Runs Sha256 LedgerModel

variable {env : Env}

def Authorised (event : Dict) : Prop :=
  isVerifiedHuman (actorOf event) = true ∧ ticketed (ticketOf (restatementBlock event)) = true

/-- A restatement handed to a door without the authority gate would have passed it. -/
def SubmitsAuthorised (call : Call) : Prop :=
  ∀ body actor, (body, actor) ∈ submissions call → isRestatement body = .ok true →
    requireVerifiedHuman actor = .ok () ∧ ticketed (ticketOf (restatementBlock body)) = true

def AllAuthorised (layer : Layer) : Prop :=
  ∀ event ∈ layer.events, isRestatement event = .ok true → Authorised event

theorem Authorised.congr {left right : Dict} (same : SameRestatement left right) (authorised : Authorised left) :
    Authorised right := by
  have actors : actorOf right = actorOf left := by
    unfold actorOf
    rw [same.2]
  rw [Authorised, actors, restatementBlock_congr same]
  exact authorised

theorem exists_same {events kept : List Dict} (same : List.Forall₂ SameRestatement events kept) {event : Dict}
    (member : event ∈ kept) : ∃ original ∈ events, SameRestatement original event := by
  induction same with
  | nil => cases member
  | cons head rest ih =>
    rcases List.mem_cons.mp member with rfl | member
    · exact ⟨_, List.mem_cons_self, head⟩
    · obtain ⟨original, found, same⟩ := ih member
      exact ⟨original, List.mem_cons_of_mem _ found, same⟩

theorem RestateEffect.authorised {block : Dict} {actor : LayerActor} {recordedAt target : String} {event : Dict}
    {layer next : Layer} (effect : RestateEffect env block actor recordedAt target event layer next) :
    Authorised event := by
  constructor
  · rw [effect.recorded.actor]
    exact isVerifiedHuman_actorToDict effect.human
  · rw [effect.recorded.ticket]
    exact effect.ticket

theorem step_keeps_authorised {layer next : Layer} {call : Call} (all : AllAuthorised layer)
    (submits : SubmitsAuthorised call) (accepted : step env layer call = .ok next) : AllAuthorised next := by
  rcases step_cases accepted with ⟨moment, layerId, block, rationale, actor, recordedAt, target, event, rfl, effect⟩ |
    ⟨moment, layerId, updates, rfl, effect⟩ | ⟨other, effect⟩
  · intro stored member restating
    rw [effect.events] at member
    split at member
    · exact all stored member restating
    · rcases List.mem_append.mp member with member | member
      · exact all stored member restating
      · rw [List.mem_singleton.mp member]
        exact effect.authorised
  · intro stored member restating
    rw [effect.events] at member
    exact all stored member restating
  · obtain ⟨kept, added, grown, same, submitted⟩ := effect.events
    intro stored member restating
    rw [grown] at member
    rcases List.mem_append.mp member with member | member
    · obtain ⟨original, held, unchanged⟩ := exists_same same member
      rw [isRestatement_congr unchanged] at restating
      exact (all original held restating).congr unchanged
    · obtain ⟨body, actor, offered, bodyRestates, block, stamped⟩ := (submitted stored member).2 restating
      obtain ⟨human, ticket⟩ := submits body actor offered bodyRestates
      have blocks : restatementBlock stored = restatementBlock body := by
        unfold restatementBlock
        rw [block]
      rw [Authorised, stamped, blocks]
      exact ⟨isVerifiedHuman_actorToDict human, ticket⟩

/-- In every layer a run from a shell leads to, every stored restatement has a verified human for its
    actor and a ticket, provided no ungated door was handed one that has not. -/
theorem restatements_authorised {layerId : String} {shell start : Layer} {calls : List Call}
    (initialized : initializeLayer env layerId none shell = .ok start)
    (along : Along (step env) (fun _ call => SubmitsAuthorised call) start calls) :
    ∀ event ∈ (run (step env) start calls).events, isRestatement event = .ok true → Authorised event := by
  have empty : AllAuthorised start := by
    intro event member
    rw [(initializeLayer_ok initialized).1] at member
    cases member
  exact run_invariant (fun _ _ _ all submits accepted => step_keeps_authorised all submits accepted) empty along

theorem restatements_authorised_moveOne :
    (run (step referenceEnv) oneClaim [restateCall moveOne]).events.any restates = true ∧
    ∀ event ∈ (run (step referenceEnv) oneClaim [restateCall moveOne]).events,
      isRestatement event = .ok true → Authorised event := by
  refine ⟨by decide +kernel, restatements_authorised (show initializeLayer referenceEnv "acme" none oneClaim =
    .ok oneClaim from rfl) ⟨fun _ => ?_, trivial⟩⟩
  intro body actor offered
  cases offered

def forgedRestatement : Dict :=
  [("finding_ref", .str layerScopeRef), ("restatement", .obj (Dict.remove moveOne "authority")),
    ("source", .obj [("ref", .str "scan-1"), ("type", .str "restatement")])]

def forgeCall : Call := .submitBatch unsigned "acme" ⟨"scan", sampleInstant, [forgedRestatement], []⟩ scannerAccount

theorem forged_restatement_stored : ∃ next, initializeLayer referenceEnv "acme" none oneClaim = .ok oneClaim ∧
    step referenceEnv oneClaim forgeCall = .ok next ∧
    ∃ event ∈ next.events, isRestatement event = .ok true ∧ ¬ Authorised event := by
  have stored : okAnd (step referenceEnv oneClaim forgeCall) (fun next =>
      next.events.any fun event => restates event && !isVerifiedHuman (actorOf event)) = true := by decide +kernel
  obtain ⟨next, accepted, stored⟩ := okAnd_iff.mp stored
  obtain ⟨event, member, found⟩ := List.any_eq_true.mp stored
  rw [Bool.and_eq_true, Bool.not_eq_true'] at found
  refine ⟨next, rfl, accepted, event, member, restates_iff.mp found.1, fun authorised => ?_⟩
  rw [authorised.1] at found
  cases found.2

end LedgerProof
