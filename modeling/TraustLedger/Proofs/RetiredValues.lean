import TraustLedger.Proofs.ExplainedChanges

namespace LedgerProof

open Hashing Python Runs Sha256 LedgerModel

variable {env : Env}

def Retired (entry : Entry) (value : Json) (layer : Layer) : Prop :=
  ∃ retired, retiredValues layer.events entry.field entry.key = .ok retired ∧ Json.pyIn value retired = true

/-- A patch gives no entry that holds nothing a value the log retired for it. -/
def AddsNothingRetired (layer : Layer) : Call → Prop
  | .patch _ _ updates => ∀ entry value, heldAt layer entry = none →
      entryIn (updates.get entry.field) entry.key = some value → ¬ Retired entry value layer
  | _ => True

def NeverRestores (env : Env) (layer : Layer) (call : Call) : Prop :=
  RecordsWhatItMoves env layer call ∧ AddsNothingRetired layer call

theorem retiredValues_readable {events : List Dict} (readable : Readable events) (field : String)
    (key : Option String) :
    retiredValues events field key = .ok ((chainOf events field).flatMap (retiredBy key)) := by
  rw [retiredValues, restatementsFor_readable readable]
  rfl

theorem readable_of_retiredValues {events : List Dict} {field : String} {key : Option String} {retired : List Json}
    (read : retiredValues events field key = .ok retired) : Readable events := by
  obtain ⟨chain, read, -⟩ := bind_ok_iff.mp read
  exact (restatementsFor_ok read).1

theorem pyIn_append {value : Json} {values more : List Json} (found : Json.pyIn value values = true) :
    Json.pyIn value (values ++ more) = true := by
  simp only [Json.pyIn, List.any_append, Bool.or_eq_true] at found ⊢
  exact Or.inl found

theorem retiredValues_grow {events kept added : List Dict} {field : String} {key : Option String} {retired : List Json}
    (read : retiredValues events field key = .ok retired) (same : List.Forall₂ SameRestatement events kept)
    (readableMore : Readable added) :
    retiredValues (kept ++ added) field key = .ok (retired ++ (chainOf added field).flatMap (retiredBy key)) := by
  have readable := readable_of_retiredValues read
  rw [retiredValues_readable readable] at read
  cases read
  rw [retiredValues_readable (Readable.append (readable_congr same readable) readableMore), chainOf_append,
    chainOf_congr same, List.flatMap_append]

theorem Retired.grow {entry : Entry} {value : Json} {layer next : Layer} {kept added : List Dict}
    (retired : Retired entry value layer) (grown : next.events = kept ++ added)
    (same : List.Forall₂ SameRestatement layer.events kept) (readableMore : Readable added) :
    Retired entry value next := by
  obtain ⟨values, read, found⟩ := retired
  have more := retiredValues_grow read same readableMore
  rw [← grown] at more
  exact ⟨_, more, pyIn_append found⟩

theorem pyIn_retiredBy {block : Dict} {value : Json} {key : Option String}
    (records : RecordsEntry (block.get "before") value key) : Json.pyIn value (retiredBy key block) = true := by
  rw [Json.pyIn_iff]
  cases key with
  | none => exact ⟨block.get "before", by simp [retiredBy], Json.pyEq_symm records⟩
  | some key =>
    obtain ⟨recorded, named, same⟩ := records
    obtain ⟨before, isBefore, found⟩ := entriesOf_some named
    refine ⟨recorded, ?_, Json.pyEq_symm same⟩
    have present : Dict.has before key = true := (Dict.has_iff_lookup _ _).mpr ⟨recorded, found⟩
    simp [retiredBy, isBefore, present, Dict.get_eq_of_lookup found]

section Restated

variable {block : Dict} {actor : LayerActor} {recordedAt target : String} {event : Dict} {layer next : Layer}
  (effect : RestateEffect env block actor recordedAt target event layer next)

include effect

theorem RestateEffect.keeps_retired {entry : Entry} {value : Json} (retired : Retired entry value layer) :
    Retired entry value next := by
  by_cases fresh : holdsId layer.events (restatementId env.hash block actor recordedAt) = false
  · exact retired.grow (effect.appended_iff.mpr ⟨fresh, rfl⟩) (same_log _) effect.readable_event
  · have unchanged : next.events = layer.events := by
      rw [effect.events, if_pos (by simpa using fresh)]
    rw [Retired, unchanged]
    exact retired

theorem RestateEffect.held_or_given (validNext : env.contracts.validateLayer next = true) {entry : Entry} {now : Json}
    (held : heldAt next entry = some now) : heldAt layer entry = some now ∨
      ∃ retired, retiredValues layer.events entry.field entry.key = .ok retired ∧ Json.pyIn now retired = false := by
  by_cases same : entry.field = target
  · have stored := effect.metadata _ entry.field_signed
    rw [if_pos same, ← same] at stored
    unfold heldAt at held ⊢
    cases whole : entry.key with
    | some key =>
      rw [whole, stored] at held
      rcases entriesOf_mergeDelta_some held with given | kept
      · obtain ⟨after, isAfter, found⟩ := entriesOf_some given
        rw [same]
        exact Or.inr (effect.monotonicEntry after isAfter key now found)
      · exact Or.inl kept
    | none =>
      rw [whole] at held
      obtain ⟨-, rfl⟩ := entryIn_none_some held
      have flat := Entry.whole_flat whole validNext
      have replaced : (block.get "after").isObj = false := by
        rw [stored] at flat
        cases after : block.get "after" with
        | obj delta =>
          rw [after, isObj_mergeDelta] at flat
          cases flat
        | _ => rfl
      rw [stored, mergeDelta_flat _ replaced, same]
      exact Or.inr (effect.monotonicWhole replaced)
  · rw [effect.held_next, if_neg same] at held
    exact Or.inl held

theorem RestateEffect.readable_log (validNext : env.contracts.validateLayer next = true) {entry : Entry} {value : Json}
    (same : entry.field = target) (held : heldAt layer entry = some value)
    (lost : Lost value (heldAt next entry)) : Readable layer.events := by
  cases after : block.get "after" with
  | obj delta =>
    have stored := effect.metadata _ entry.field_signed
    rw [if_pos same, ← same, after] at stored
    unfold heldAt at held lost
    cases whole : entry.key with
    | some key =>
      rw [whole] at held lost
      obtain ⟨fields, isMap, found⟩ := entriesOf_some held
      cases named : delta.lookup key with
      | some given =>
        obtain ⟨retired, read, -⟩ := effect.monotonicEntry delta after key given named
        exact readable_of_retiredValues read
      | none =>
        have untouched : entryIn (next.metadata.get entry.field) (some key) = some value := by
          rw [stored, isMap, entryIn, entriesOf_mergeDelta, Deltas.apply, deltaOf, named]
          exact found
        rw [untouched] at lost
        exact absurd lost (not_lost_self value)
    | none =>
      have flat := Entry.whole_flat whole validNext
      rw [stored, isObj_mergeDelta] at flat
      cases flat
  | _ =>
    obtain ⟨retired, read, -⟩ := effect.monotonicWhole (by rw [after]; rfl)
    exact readable_of_retiredValues read

theorem RestateEffect.retires (valid : env.contracts.validateLayer layer = true)
    (validNext : env.contracts.validateLayer next = true) {entry : Entry} {value : Json}
    (same : entry.field = target) (held : heldAt layer entry = some value) (lost : Lost value (heldAt next entry))
    (names : NamesEntry (block.get "before") entry.key)
    (fresh : holdsId layer.events (restatementId env.hash block actor recordedAt) = false) :
    Retired entry value next := by
  have readable := effect.readable_log validNext same held lost
  have grown : next.events = layer.events ++ [event] := effect.appended_iff.mpr ⟨fresh, rfl⟩
  have records := (effect.records_iff valid same held).mpr names
  rw [← effect.recorded.before] at records
  refine ⟨_, retiredValues_readable ?_ _ _, ?_⟩
  · rw [grown]
    exact readable.append effect.readable_event
  · rw [grown, chainOf_append, effect.chainOf_event, if_pos same, List.flatMap_append, Json.pyIn, List.any_append,
      Bool.or_eq_true]
    right
    simpa [Json.pyIn] using pyIn_retiredBy records

end Restated

/-- A value an entry was moved away from: the log retired it, and the entry does not hold it. -/
structure Gone (env : Env) (entry : Entry) (value : Json) (layer : Layer) : Prop where
  valid : env.contracts.validateLayer layer = true
  retired : Retired entry value layer
  lost : Lost value (heldAt layer entry)

theorem Retired.not_free {entry : Entry} {value now : Json} {layer : Layer} (retired : Retired entry value layer)
    (same : Json.pyEq now value = true) : ¬ ∃ values, retiredValues layer.events entry.field entry.key = .ok values ∧
      Json.pyIn now values = false := by
  rintro ⟨values, read, free⟩
  obtain ⟨others, readAgain, found⟩ := retired
  rw [read] at readAgain
  cases readAgain
  rw [Json.pyIn_congr same, found] at free
  cases free

theorem RestateEffect.keeps_gone {entry : Entry} {value : Json} {block : Dict} {actor : LayerActor}
    {recordedAt target : String} {event : Dict} {layer next : Layer}
    (effect : RestateEffect env block actor recordedAt target event layer next) (gone : Gone env entry value layer)
    (validNext : env.contracts.validateLayer next = true) : Gone env entry value next := by
  refine ⟨validNext, effect.keeps_retired gone.retired, fun now held => ?_⟩
  by_contra back
  have same : Json.pyEq now value = true := by simpa using back
  rcases effect.held_or_given validNext held with kept | free
  · rw [gone.lost now kept] at same
    cases same
  · exact gone.retired.not_free same free

theorem PatchEffect.keeps_gone {entry : Entry} {value : Json} {updates : Dict} {layer next : Layer}
    (effect : PatchEffect updates layer next) (gone : Gone env entry value layer)
    (validNext : env.contracts.validateLayer next = true)
    (adds : ∀ entry value, heldAt layer entry = none → entryIn (updates.get entry.field) entry.key = some value →
      ¬ Retired entry value layer) : Gone env entry value next := by
  have retired : Retired entry value next := by
    rw [Retired, effect.events]
    exact gone.retired
  refine ⟨validNext, retired, fun now held => ?_⟩
  by_contra back
  have same : Json.pyEq now value = true := by simpa using back
  cases before : heldAt layer entry with
  | some old =>
    obtain ⟨current, stored, unchanged⟩ := effect.keeps gone.valid before
    rw [held] at stored
    cases stored
    have differs := gone.lost old before
    rw [← Json.pyEq_congr_left unchanged, same] at differs
    cases differs
  | none =>
    have written := effect.adds gone.valid before held
    apply adds entry now before written
    obtain ⟨values, read, found⟩ := gone.retired
    exact ⟨values, read, by rw [Json.pyIn_congr same, found]⟩

theorem SubmitEffect.keeps_gone {entry : Entry} {value : Json} {offered : List (Dict × LayerActor)}
    {layer next : Layer} (effect : SubmitEffect env offered layer next) (gone : Gone env entry value layer)
    (validNext : env.contracts.validateLayer next = true) : Gone env entry value next := by
  obtain ⟨kept, added, grown, same, submitted⟩ := effect.events
  refine ⟨validNext, gone.retired.grow grown same fun event member => (submitted event member).1, ?_⟩
  rw [heldAt, effect.metadata _ entry.field_signed]
  exact gone.lost

theorem step_keeps_gone {entry : Entry} {value : Json} {layer next : Layer} {call : Call}
    (gone : Gone env entry value layer) (adds : AddsNothingRetired layer call)
    (accepted : step env layer call = .ok next) : Gone env entry value next := by
  have validNext := step_valid gone.valid accepted
  rcases step_cases accepted with ⟨moment, layerId, block, rationale, actor, recordedAt, target, event, rfl, effect⟩ |
    ⟨moment, layerId, updates, rfl, effect⟩ | ⟨other, effect⟩
  · exact effect.keeps_gone gone validNext
  · exact effect.keeps_gone gone validNext adds
  · exact effect.keeps_gone gone validNext

theorem step_retires {entry : Entry} {value : Json} {layer moved : Layer} {call : Call}
    (valid : env.contracts.validateLayer layer = true) (records : RecordsWhatItMoves env layer call)
    (accepted : step env layer call = .ok moved) (held : heldAt layer entry = some value)
    (lost : Lost value (heldAt moved entry)) : Gone env entry value moved := by
  have validMoved := step_valid valid accepted
  refine ⟨validMoved, ?_, lost⟩
  rcases step_cases accepted with ⟨moment, layerId, block, rationale, actor, recordedAt, target, event, rfl, effect⟩ |
    ⟨moment, layerId, updates, rfl, effect⟩ | ⟨other, effect⟩
  · have moves := effect.held_next entry
    by_cases same : entry.field = target
    · rw [if_pos same] at moves
      obtain ⟨names, fresh⟩ := records entry value (by rw [effect.blockTarget, same]) held (moves ▸ lost)
      exact effect.retires valid validMoved same held lost names fresh
    · rw [if_neg same, held] at moves
      rw [moves] at lost
      exact absurd lost (not_lost_self value)
  · obtain ⟨now, stored, same⟩ := effect.keeps valid held
    rw [lost now stored] at same
    cases same
  · rw [heldAt, effect.metadata _ entry.field_signed, ← heldAt, held] at lost
    exact absurd lost (not_lost_self value)

/-- Once a call moved an entry away from a value, no layer of any run of calls that record what they
    move and patch back nothing retired holds that value there. -/
theorem retired_never_held {entry : Entry} {value : Json} {layer moved : Layer} {call : Call} {calls : List Call}
    (valid : env.contracts.validateLayer layer = true) (accepted : step env layer call = .ok moved)
    (held : heldAt layer entry = some value) (lost : Lost value (heldAt moved entry))
    (along : Along (step env) (NeverRestores env) layer (call :: calls)) :
    Lost value (heldAt (run (step env) layer (call :: calls)) entry) := by
  obtain ⟨permitted, rest⟩ := along
  have allowed := permitted ⟨moved, accepted⟩
  rw [attempt_ok accepted] at rest
  have start := step_retires valid allowed.1 accepted held lost
  have finished : Gone env entry value (run (step env) moved calls) :=
    run_invariant (fun _ _ _ gone allowed accepted => step_keeps_gone gone allowed.2 accepted) start rest
  have path : run (step env) layer (call :: calls) = run (step env) moved calls := by
    rw [run, List.foldl_cons, attempt_ok accepted, ← run]
  rw [path]
  exact finished.lost

theorem retired_moveOne : ∃ moved, step referenceEnv oneClaim (restateCall moveOne) = .ok moved ∧
    heldAt oneClaim (.claimHash "FIND-1") = some (.str "a") ∧
    Lost (.str "a") (heldAt (run (step referenceEnv) oneClaim
      [restateCall moveOne, .patch unsigned "acme" [("notes", .str "moved")]]) (.claimHash "FIND-1")) := by
  obtain ⟨moved, accepted⟩ := exists_of_isOk moveOne_accepted
  have held : heldAt oneClaim (.claimHash "FIND-1") = some (.str "a") := rfl
  have lost : Lost (.str "a") (heldAt moved (.claimHash "FIND-1")) := by
    obtain ⟨receipt, applied⟩ := map_fst_ok accepted
    obtain ⟨target, event, effect⟩ := applyRestatement_ok applied
    have same : Entry.field (.claimHash "FIND-1") = target := Json.str.inj effect.blockTarget
    rw [effect.held_next, if_pos same]
    intro now stored
    cases stored
    rfl
  refine ⟨moved, accepted, held, retired_never_held (reachable_valid oneClaim_reachable) accepted held lost ?_⟩
  refine ⟨fun _ => ⟨moveOne_records, trivial⟩, fun _ => ⟨trivial, ?_⟩, trivial⟩
  intro entry value empty written
  cases entry <;> cases written

def restoreSecond : Dict := claimBlock [("FIND-2", .str "d")] [("FIND-2", .str "b")]

/-- Moved along with another claim and not named: the value comes back through the same gate. -/
theorem unnamed_value_restored : ∃ moved restored,
    heldAt twoClaims (.claimHash "FIND-2") = some (.str "b") ∧
    step referenceEnv twoClaims (restateCall moveBoth) = .ok moved ∧
    heldAt moved (.claimHash "FIND-2") = some (.str "d") ∧
    step referenceEnv moved (restateCall restoreSecond) = .ok restored ∧
    heldAt restored (.claimHash "FIND-2") = some (.str "b") := by
  have both : okAnd (step referenceEnv twoClaims (restateCall moveBoth)) (fun moved =>
      decide (heldAt moved (.claimHash "FIND-2") = some (.str "d")) &&
        okAnd (step referenceEnv moved (restateCall restoreSecond)) fun restored =>
          decide (heldAt restored (.claimHash "FIND-2") = some (.str "b"))) = true := by decide +kernel
  obtain ⟨moved, first, both⟩ := okAnd_iff.mp both
  rw [Bool.and_eq_true] at both
  obtain ⟨restored, second, back⟩ := okAnd_iff.mp both.2
  exact ⟨moved, restored, rfl, first, of_decide_eq_true both.1, second, of_decide_eq_true back⟩

end LedgerProof
