import TraustLedger.Proofs.EntryProofs
import TraustLedger.Proofs.ReferenceEnv

namespace LedgerProof

open Hashing Python Runs Sha256 LedgerModel

variable {env : Env}

/-- An update that leaves alone what a chain says of a field where nothing stored guards it: a key the
    chain holds as deleted, and a value the chain left blank. -/
def Respects (update : Json) : Json → Prop
  | .obj expected => ∀ key, expected.lookup key = some .null →
      update.isObj = true ∧ (entriesOf update key).getD .null = .null
  | flat => isBlank flat = true → Json.pyEq update flat = true

/-- A restatement is recorded, a patch respects the chains, and no other door brings in a restatement. -/
def KeepsChain (env : Env) (layer : Layer) : Call → Prop
  | .restate _ _ block _ actor recordedAt =>
      holdsId layer.events (restatementId env.hash block actor recordedAt) = false
  | .patch _ _ updates => ∀ field ∈ signedMetadataFields, ∀ update terminal,
      updates.lookup field = some update → terminalValue layer.events field = .ok (some terminal) →
      Respects update terminal
  | call => ∀ body actor, (body, actor) ∈ submissions call → isRestatement body ≠ .ok true

theorem pinned_mergeDelta (current : Json) (delta : Dict) :
    Deltas.Pinned readsAs (entriesOf (.obj delta)) (entriesOf (mergeDelta current (.obj delta))) := by
  intro key value named
  rw [entriesOf_obj] at named
  cases current with
  | obj fields =>
    rw [entriesOf_mergeDelta, Deltas.apply, deltaOf, named]
    by_cases gone : value = .null <;> simp [gone, readsAs]
  | _ =>
    rw [mergeDelta_onto_flat rfl, entriesOf_obj, named]
    exact Json.pyEq_self value

theorem Agrees.restate {actual : Json} {chain : List Dict}
    (agrees : Agrees actual (if chain.isEmpty then none else some (replay chain))) (block : Dict) :
    Agrees (mergeDelta actual (block.get "after")) (some (replay (chain ++ [block]))) := by
  rw [replay_snoc]
  cases after : block.get "after" with
  | obj delta =>
    cases terminal : replay chain with
    | obj expected =>
      have restated : chain.isEmpty = false := by
        cases chain with
        | nil => cases terminal
        | cons => rfl
      rw [restated, terminal] at agrees
      obtain ⟨pinned, shape⟩ := agrees
      refine ⟨?_, fun _ => isObj_mergeDelta actual delta⟩
      rw [← mergeDelta, entriesOf_mergeDelta]
      cases actual with
      | obj held =>
        rw [entriesOf_mergeDelta]
        exact pinned.apply (fun v => Json.pyEq_self v) (deltaOf delta)
      | _ =>
        -- an object the stored value is none of has lost all its keys
        have lost : expected = [] := by
          by_contra nonempty
          cases shape nonempty
        subst lost
        intro key value named
        apply pinned_mergeDelta _ delta key value
        rw [Deltas.apply, deltaOf] at named
        cases found : delta.lookup key with
        | none => simp [found] at named
        | some given => by_cases gone : given = .null <;> simp_all
    | _ =>
      simp only [Json.isObj, Bool.false_eq_true, if_false]
      rw [@mergeDelta_onto_flat .null rfl]
      exact ⟨pinned_mergeDelta actual delta, fun _ => isObj_mergeDelta actual delta⟩
  | _ =>
    rw [mergeDelta_flat _ rfl, mergeDelta_flat _ rfl]
    exact agrees_self _

theorem agrees_flat {actual terminal : Json} (flat : terminal.isObj = false) :
    Agrees actual (some terminal) ↔ Json.pyEq actual terminal = true := by
  cases terminal with
  | obj fields => cases flat
  | _ => exact Iff.rfl

theorem respects_flat {update terminal : Json} (flat : terminal.isObj = false) :
    Respects update terminal ↔ (isBlank terminal = true → Json.pyEq update terminal = true) := by
  cases terminal with
  | obj fields => cases flat
  | _ => exact Iff.rfl

theorem pinned_update {expected held entries : Dict}
    (pinned : Deltas.Pinned readsAs (entriesOf (.obj expected)) (entriesOf (.obj held)))
    (kept : isDestructiveChange (.obj held) (.obj (Dict.update held entries)) = false)
    (respects : Respects (.obj entries) (.obj expected)) :
    Deltas.Pinned readsAs (entriesOf (.obj expected)) (entriesOf (.obj (Dict.update held entries))) := by
  intro key value found
  have reads := pinned key value found
  rw [readsAs, entriesOf_obj] at reads ⊢
  cases before : held.lookup key with
  | some current =>
    rw [before] at reads
    exact Json.pyEq_trans (kept_entry kept before) reads
  | none =>
    -- nothing is stored, so the chain holds the key as deleted and the update must not name it
    rw [before] at reads
    have deleted := Json.pyEq_null_left reads
    subst deleted
    have silent := (respects key found).2
    rw [entriesOf_obj] at silent
    rw [Dict.lookup_update, before, Option.or_none, silent]
    rfl

theorem Agrees.patch {actual update terminal : Json} (agrees : Agrees actual (some terminal))
    (kept : isDestructiveChange actual (patchValue actual update) = false) (respects : Respects update terminal) :
    Agrees (patchValue actual update) (some terminal) := by
  by_cases flat : terminal.isObj = false
  · rw [agrees_flat flat] at agrees ⊢
    have actualFlat : actual.isObj = false := (Json.isObj_congr agrees).trans flat
    rw [patchValue_flat actualFlat] at kept ⊢
    by_cases blank : isBlank terminal = true
    · exact (respects_flat flat).mp respects blank
    · have filled : isBlank actual = false := by
        rw [isBlank_congr agrees]
        simpa using blank
      exact Json.pyEq_trans (kept_whole kept filled (Or.inl actualFlat)) agrees
  · cases terminal with
    | obj expected =>
      obtain ⟨pinned, shape⟩ := agrees
      cases expected with
      | nil => exact ⟨fun key value found => by simp at found, fun nonempty => absurd rfl nonempty⟩
      | cons first rest =>
        have isMap := shape (by simp)
        cases actual with
        | obj held =>
          cases update with
          | obj entries => exact ⟨pinned_update pinned kept respects, fun _ => rfl⟩
          | _ =>
            by_cases empty : held = []
            · subst empty
              have named : List.lookup first.1 (first :: rest) = some first.2 := by
                rw [Dict.lookup_cons_ite, if_pos rfl]
              have reads := pinned first.1 first.2 named
              have deleted := Json.pyEq_null_left reads
              rw [deleted] at named
              cases (respects first.1 named).1
            · have filled : isBlank (.obj held) = false := by
                rw [Bool.eq_false_iff, ne_eq, isBlank_obj]
                exact empty
              cases Json.isObj_congr (kept_whole kept filled (Or.inr rfl))
        | _ => cases isMap
    | _ => exact absurd rfl flat

theorem chainOf_plain {events : List Dict} (plain : ∀ event ∈ events, isRestatement event ≠ .ok true)
    (field : String) : chainOf events field = [] := by
  have none : events.filter restates = [] := by
    rw [List.filter_eq_nil_iff]
    exact fun event member restating => plain event member (restates_iff.mp restating)
  simp [chainOf, none]

theorem terminalOf_congr {events others : List Dict} {field : String}
    (same : chainOf others field = chainOf events field) : terminalOf others field = terminalOf events field := by
  rw [terminalOf, terminalOf, same]

theorem RestateEffect.keeps_chain {block : Dict} {actor : LayerActor} {recordedAt target : String} {event : Dict}
    {layer next : Layer} (effect : RestateEffect env block actor recordedAt target event layer next)
    (clean : verifyRestatedMetadata layer = .ok [])
    (fresh : holdsId layer.events (restatementId env.hash block actor recordedAt) = false) :
    verifyRestatedMetadata next = .ok [] := by
  rw [verifyRestatedMetadata_nil_iff] at clean ⊢
  obtain ⟨readable, agrees⟩ := clean
  have grown : next.events = layer.events ++ [event] := effect.appended_iff.mpr ⟨fresh, rfl⟩
  refine ⟨?_, fun field signed => ?_⟩
  · rw [grown]
    exact readable.append effect.readable_event
  · rw [effect.metadata field signed, terminalOf, grown, chainOf_append, effect.chainOf_event]
    by_cases same : field = target
    · subst same
      rw [if_pos rfl, if_pos rfl, ← effect.recorded.after]
      simpa using (agrees field signed).restate (restatementBlock event)
    · rw [if_neg same, if_neg same, List.append_nil]
      exact agrees field signed

theorem PatchEffect.keeps_chain {updates : Dict} {layer next : Layer} (effect : PatchEffect updates layer next)
    (clean : verifyRestatedMetadata layer = .ok [])
    (respects : ∀ field ∈ signedMetadataFields, ∀ update terminal, updates.lookup field = some update →
      terminalValue layer.events field = .ok (some terminal) → Respects update terminal) :
    verifyRestatedMetadata next = .ok [] := by
  rw [verifyRestatedMetadata_nil_iff] at clean ⊢
  obtain ⟨readable, agrees⟩ := clean
  refine ⟨effect.events ▸ readable, fun field signed => ?_⟩
  have stored := effect.metadata field signed
  have kept := effect.kept field signed
  have before := agrees field signed
  rw [effect.events]
  cases update : updates.lookup field with
  | none =>
    rw [stored, update]
    exact before
  | some change =>
    rw [update] at stored
    cases terminal : terminalOf layer.events field with
    | none => trivial
    | some expected =>
      rw [terminal] at before
      rw [stored] at kept ⊢
      have read := terminalValue_readable readable field
      rw [terminal] at read
      exact before.patch kept (respects field signed change expected update read)

theorem SubmitEffect.keeps_chain {offered : List (Dict × LayerActor)} {layer next : Layer}
    (effect : SubmitEffect env offered layer next) (clean : verifyRestatedMetadata layer = .ok [])
    (plain : ∀ body actor, (body, actor) ∈ offered → isRestatement body ≠ .ok true) :
    verifyRestatedMetadata next = .ok [] := by
  rw [verifyRestatedMetadata_nil_iff] at clean ⊢
  obtain ⟨readable, agrees⟩ := clean
  obtain ⟨kept, added, grown, same, submitted⟩ := effect.events
  have noRestatement : ∀ event ∈ added, isRestatement event ≠ .ok true := by
    intro event member restating
    obtain ⟨body, actor, given, bodyRestates, -⟩ := (submitted event member).2 restating
    exact plain body actor given bodyRestates
  refine ⟨?_, fun field signed => ?_⟩
  · rw [grown]
    exact Readable.append (readable_congr same readable) fun event member => (submitted event member).1
  · have chain : chainOf next.events field = chainOf layer.events field := by
      rw [grown, chainOf_append, chainOf_plain noRestatement, List.append_nil, chainOf_congr same]
    rw [effect.metadata field signed, terminalOf_congr chain]
    exact agrees field signed

theorem step_keeps_chain {layer next : Layer} {call : Call} (clean : verifyRestatedMetadata layer = .ok [])
    (keeps : KeepsChain env layer call) (accepted : step env layer call = .ok next) :
    verifyRestatedMetadata next = .ok [] := by
  rcases step_cases accepted with ⟨moment, layerId, block, rationale, actor, recordedAt, target, event, rfl, effect⟩ |
    ⟨moment, layerId, updates, rfl, effect⟩ | ⟨other, effect⟩
  · exact effect.keeps_chain clean keeps
  · exact effect.keeps_chain clean keeps
  · apply effect.keeps_chain clean
    cases call with
    | restate => cases other
    | patch => cases other
    | _ => exact keeps

/-- From a layer with nothing to report, every run of calls that keep the chains leads to layers with
    nothing to report. -/
theorem verifyRestatedMetadata_run {layer : Layer} {calls : List Call}
    (clean : verifyRestatedMetadata layer = .ok []) (along : Along (step env) (KeepsChain env) layer calls) :
    verifyRestatedMetadata (run (step env) layer calls) = .ok [] :=
  run_invariant (fun _ _ _ held keeps accepted => step_keeps_chain held keeps accepted) clean along

theorem verifyRestatedMetadata_moveOne :
    (step referenceEnv oneClaim (restateCall moveOne)).isOk = true ∧
    verifyRestatedMetadata (run (step referenceEnv) oneClaim
      [restateCall moveOne, .patch unsigned "acme" [("notes", .str "moved")]]) = .ok [] := by
  refine ⟨moveOne_accepted, verifyRestatedMetadata_run rfl ⟨fun _ => rfl, fun _ => ?_, trivial⟩⟩
  intro field signed update terminal written
  simp only [signedMetadataFields, List.mem_cons, List.not_mem_nil, or_false] at signed
  rcases signed with rfl | rfl | rfl <;> cases written

def reportsNothing (layer : Layer) : Bool :=
  match verifyRestatedMetadata layer with
  | .ok [] => true
  | _ => false

/-- An entry deleted by a restatement and added again by a patch: both calls are accepted, from a layer
    with nothing to report, and the verifier reports the entry. -/
theorem patched_deletion_reported : ∃ deleted patched,
    verifyRestatedMetadata oneClaim = .ok [] ∧
    step referenceEnv oneClaim (restateCall deleteOne) = .ok deleted ∧
    step referenceEnv deleted (patchClaims [("FIND-1", .str "z")]) = .ok patched ∧
    verifyRestatedMetadata patched ≠ .ok [] := by
  have both : okAnd (step referenceEnv oneClaim (restateCall deleteOne)) (fun deleted =>
      okAnd (step referenceEnv deleted (patchClaims [("FIND-1", .str "z")])) fun patched =>
        !reportsNothing patched) = true := by decide +kernel
  obtain ⟨deleted, first, both⟩ := okAnd_iff.mp both
  obtain ⟨patched, second, reported⟩ := okAnd_iff.mp both
  refine ⟨deleted, patched, rfl, first, second, fun clean => ?_⟩
  simp [reportsNothing, clean] at reported

end LedgerProof
