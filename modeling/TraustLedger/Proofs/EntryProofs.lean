import TraustLedger.Proofs.DoorProofs

namespace LedgerProof

open Hashing Python Runs LedgerModel

variable {env : Env}

/-- The entries the signature covers: the two maps key by key, the audit report as a whole. -/
inductive Entry where
  | claimHash (key : String)
  | artifactDigest (key : String)
  | auditReport

def Entry.field : Entry → String
  | .claimHash _ => "claim_hashes"
  | .artifactDigest _ => "artifact_digests"
  | .auditReport => "audit_report_sha256"

def Entry.key : Entry → Option String
  | .claimHash key => some key
  | .artifactDigest key => some key
  | .auditReport => none

theorem Entry.field_signed (entry : Entry) : entry.field ∈ signedMetadataFields := by
  cases entry <;> simp [Entry.field, signedMetadataFields]

/-- What a field's value holds under a key, or as a whole: a blank value holds nothing. -/
def entryIn (value : Json) : Option String → Option Json
  | some key => entriesOf value key
  | none => if isBlank value then none else some value

theorem Entry.whole_flat {entry : Entry} (whole : entry.key = none) {layer : Layer}
    (valid : env.contracts.validateLayer layer = true) : (layer.metadata.get entry.field).isObj = false := by
  cases entry with
  | auditReport => exact env.contracts.audit_report_scalar layer valid
  | _ => cases whole

def heldAt (layer : Layer) (entry : Entry) : Option Json := entryIn (layer.metadata.get entry.field) entry.key

def Lost (value : Json) (held : Option Json) : Prop := ∀ now, held = some now → Json.pyEq now value = false

theorem not_lost_self (value : Json) : ¬ Lost value (some value) := by
  intro lost
  have differs := lost value rfl
  rw [Json.pyEq_self] at differs
  cases differs

theorem entriesOf_some {value held : Json} {key : String} (found : entriesOf value key = some held) :
    ∃ fields, value = .obj fields ∧ fields.lookup key = some held := by
  cases value with
  | obj fields => exact ⟨fields, rfl, found⟩
  | _ => simp [entriesOf] at found

theorem entryIn_none_some {value held : Json} (found : entryIn value none = some held) :
    isBlank value = false ∧ held = value := by
  simp only [entryIn] at found
  split at found
  · cases found
  · next filled =>
    cases found
    exact ⟨by simpa using filled, rfl⟩

theorem isBlank_obj {fields : Dict} : isBlank (.obj fields) = true ↔ fields = [] := by
  cases fields with
  | nil => simp [isBlank, Json.pyIn, Json.pyEq, Json.norm, Json.normFields]
  | cons entry rest => simp [isBlank, Json.pyIn, Json.pyEq, Json.norm, Json.normFields]

theorem filled_of_lookup {fields : Dict} {key : String} {value : Json} (found : fields.lookup key = some value) :
    isBlank (.obj fields) = false := by
  rw [Bool.eq_false_iff, ne_eq, isBlank_obj]
  intro empty
  rw [empty] at found
  cases found

theorem isBlank_congr {left right : Json} (same : Json.pyEq left right = true) : isBlank left = isBlank right :=
  Json.pyIn_congr same _

theorem kept_entry {held now : Dict} (kept : isDestructiveChange (.obj held) (.obj now) = false) {key : String}
    {value : Json} (found : held.lookup key = some value) : Json.pyEq (Dict.get now key) value = true := by
  have filled := filled_of_lookup found
  rw [isDestructiveChange, filled] at kept
  simp only [Bool.false_eq_true, if_false, List.any_eq_false, Bool.not_eq_true', Bool.not_eq_false] at kept
  exact kept (key, value) (Dict.mem_items.mpr found)

theorem kept_whole {held now : Json} (kept : isDestructiveChange held now = false) (filled : isBlank held = false)
    (flat : held.isObj = false ∨ now.isObj = false) : Json.pyEq now held = true := by
  unfold isDestructiveChange at kept
  rw [if_neg (by simp [filled])] at kept
  split at kept
  · simp [Json.isObj] at flat
  · simpa using kept

theorem patchValue_flat {held : Json} (flat : held.isObj = false) (update : Json) : patchValue held update = update := by
  cases held with
  | obj fields => cases flat
  | _ => rfl

theorem has_patched {held now : Dict} {update : Option Json} {key : String} {value : Json}
    (stored : Json.obj now = patched (.obj held) update) (found : held.lookup key = some value) :
    Dict.has now key = true := by
  have present : Dict.has held key = true := (Dict.has_iff_lookup _ _).mpr ⟨value, found⟩
  cases update with
  | none =>
    cases stored
    exact present
  | some change =>
    cases change with
    | obj entries =>
      cases stored
      rw [Dict.has_update, present, Bool.or_true]
    | _ => cases stored

theorem PatchEffect.keeps {updates : Dict} {layer next : Layer} (effect : PatchEffect updates layer next)
    (valid : env.contracts.validateLayer layer = true) {entry : Entry} {value : Json}
    (held : heldAt layer entry = some value) :
    ∃ now, heldAt next entry = some now ∧ Json.pyEq now value = true := by
  have kept := effect.kept _ entry.field_signed
  have stored := effect.metadata _ entry.field_signed
  unfold heldAt at held ⊢
  cases whole : entry.key with
  | some key =>
    rw [whole] at held
    obtain ⟨fields, isMap, found⟩ := entriesOf_some held
    rw [isMap] at kept stored
    have filled := filled_of_lookup found
    cases now : next.metadata.get entry.field with
    | obj nowFields =>
      rw [now] at kept stored
      have reads := kept_entry kept found
      have present := has_patched stored found
      obtain ⟨current, lookup⟩ := (Dict.has_iff_lookup _ _).mp present
      rw [Dict.get_eq_of_lookup lookup] at reads
      exact ⟨current, lookup, reads⟩
    | _ =>
      rw [now] at kept
      have same := Json.isObj_congr (kept_whole kept filled (Or.inr rfl))
      cases same
  | none =>
    rw [whole] at held
    obtain ⟨filled, rfl⟩ := entryIn_none_some held
    have flat := Entry.whole_flat whole valid
    have same := kept_whole kept filled (Or.inl flat)
    refine ⟨next.metadata.get entry.field, ?_, same⟩
    rw [entryIn, isBlank_congr same, filled]
    rfl

theorem PatchEffect.adds {updates : Dict} {layer next : Layer} (effect : PatchEffect updates layer next)
    (valid : env.contracts.validateLayer layer = true) {entry : Entry} {value : Json}
    (empty : heldAt layer entry = none) (added : heldAt next entry = some value) :
    entryIn (updates.get entry.field) entry.key = some value := by
  have stored := effect.metadata _ entry.field_signed
  unfold heldAt at empty added
  cases update : updates.lookup entry.field with
  | none =>
    rw [update] at stored
    rw [stored, patched, Option.elim_none, empty] at added
    cases added
  | some change =>
    rw [update, patched, Option.elim_some] at stored
    rw [Dict.get_eq_of_lookup update]
    by_cases flat : (layer.metadata.get entry.field).isObj = false
    · rw [stored, patchValue_flat flat] at added
      exact added
    · cases held : layer.metadata.get entry.field with
      | obj fields =>
        rw [held] at stored empty
        rw [stored] at added
        cases whole : entry.key with
        | some key =>
          rw [whole] at empty added
          cases change with
          | obj entries =>
            have absent : fields.lookup key = none := empty
            simpa [entryIn, patchValue, absent] using added
          | _ => exact added
        | none => exact absurd (Entry.whole_flat whole valid) flat
      | _ =>
        rw [held] at flat
        exact absurd rfl flat

section Restated

variable {block : Dict} {actor : LayerActor} {recordedAt target : String} {event : Dict} {layer next : Layer}
  (effect : RestateEffect env block actor recordedAt target event layer next)

include effect

theorem RestateEffect.appended_iff {appended : Dict} : next.events = layer.events ++ [appended] ↔
    holdsId layer.events (restatementId env.hash block actor recordedAt) = false ∧ appended = event := by
  rw [effect.events]
  split
  · next held => simp [held]
  · next fresh =>
    rw [List.append_cancel_left_eq, List.singleton_inj]
    exact ⟨fun same => ⟨by simpa using fresh, same.symm⟩, fun parts => parts.2.symm⟩

theorem RestateEffect.held_next (entry : Entry) : heldAt next entry = if entry.field = target then
    entryIn (mergeDelta (layer.metadata.get entry.field) (block.get "after")) entry.key
    else heldAt layer entry := by
  rw [heldAt, effect.metadata _ entry.field_signed]
  split
  · next same => rw [same]
  · rfl

theorem RestateEffect.chainOf_event (field : String) :
    chainOf [event] field = if field = target then [restatementBlock event] else [] := by
  have targeted : (restatementBlock event).get "target" = .str target :=
    effect.recorded.target.trans effect.blockTarget
  by_cases same : field = target
  · simp [chainOf, restates_iff.mpr effect.recorded.restates, targeted, same]
  · simp [chainOf, restates_iff.mpr effect.recorded.restates, targeted, same, Ne.symm same]

theorem RestateEffect.readable_event : Readable [event] := by
  intro e member
  rw [List.mem_singleton.mp member]
  exact ⟨true, effect.recorded.restates⟩

end Restated

def isVerifiedHuman (actor : Dict) : Bool :=
  decide (actor.get "kind" = .str "human") &&
    (match actor.get "identity" with
      | .str identity => strip identity != ""
      | _ => false) &&
    (match actor.get "identity_verified", actor.get "employee_status" with
      | .null, .null => (actor.get "ldap_verified").truthy
      | .null, status => decide (status = .str "active")
      | verified, _ => verified.truthy)

theorem isVerifiedHuman_actorToDict {actor : LayerActor} (human : requireVerifiedHuman actor = .ok ()) :
    isVerifiedHuman (env.contracts.actorToDict actor) = true := by
  obtain ⟨_, person, verified⟩ := bind_ok_iff.mp human
  rw [require_ok_iff] at person verified
  obtain ⟨kind, name⟩ := person
  unfold isVerifiedHuman
  rw [env.contracts.actor_kind, env.contracts.actor_identity, env.contracts.actor_verified,
    env.contracts.actor_status, env.contracts.actor_ldap, kind]
  cases identity : actor.identity with
  | none =>
    rw [identity] at name
    exact absurd name (by decide)
  | some text =>
    rw [identity] at name
    unfold isVerified at verified
    cases flag : actor.identityVerified with
    | some answer =>
      rw [flag] at verified
      simpa [optionalText, optionalFlag, named, Json.truthy, verified] using name
    | none =>
      cases status : actor.employeeStatus with
      | some text =>
        rw [flag, status] at verified
        simpa [optionalText, optionalFlag, named, beq_iff_eq.mp verified] using name
      | none =>
        rw [flag, status] at verified
        cases ldap : actor.ldapVerified with
        | none => simp [ldap] at verified
        | some answer =>
          rw [ldap] at verified
          have yes : answer = true := verified
          simpa [optionalText, optionalFlag, named, Json.truthy, yes] using name

end LedgerProof
