import TraustLedger.Proofs.ExplainedChanges

namespace LedgerProof

open Hashing Python Runs LedgerModel

variable {env : Env}

def SameEntry : Option Json → Option Json → Prop
  | some left, some right => Json.pyEq left right = true
  | none, none => True
  | _, _ => False

/-- `==` of two values of a field: maps are equal key by key, whatever the order of their entries. -/
def SameValue : Json → Json → Prop
  | .obj left, .obj right => ∀ key, SameEntry (left.lookup key) (right.lookup key)
  | left, right => Json.pyEq left right = true

/-- The delta says something that the stored map does not: a value that its key does not hold, or the deletion of a
    key that is there. -/
def Moves : Json → Json → Prop
  | .obj held, .obj after => ∃ key value, after.lookup key = some value ∧
      if value = .null then Dict.has held key = true else ¬ SameEntry (held.lookup key) (some value)
  | _, _ => True

theorem SameEntry.refl (entry : Option Json) : SameEntry entry entry := by
  cases entry with
  | none => trivial
  | some value => exact Json.pyEq_self value

theorem sameValue_flat {left right : Json} (flat : left.isObj = false ∨ right.isObj = false) :
    SameValue left right ↔ Json.pyEq left right = true := by
  cases left with
  | obj fields =>
    cases right with
    | obj others => simp [Json.isObj] at flat
    | _ => rfl
  | _ => rfl

theorem sameValue_mergeDelta_iff (held after : Dict) :
    SameValue (.obj held) (mergeDelta (.obj held) (.obj after)) ↔ ¬ Moves (.obj held) (.obj after) := by
  have merged : ∀ key, (applyDelta held after).lookup key =
      ((after.lookup key).map fun value => if value = .null then none else some value).getD (held.lookup key) :=
    lookup_applyDelta held after
  simp only [mergeDelta, SameValue, Moves, merged]
  constructor
  · intro same moves
    rcases moves with ⟨key, value, named, moved⟩
    have entry := same key
    rw [named] at entry
    by_cases gone : value = .null
    · rw [if_pos gone, Dict.has_iff_lookup] at moved
      rcases moved with ⟨present, found⟩
      simp [gone, found, SameEntry] at entry
    · rw [if_neg gone] at moved
      exact moved (by simpa [gone] using entry)
  · intro still key
    cases named : after.lookup key with
    | none => exact SameEntry.refl _
    | some value =>
      have entry : ¬ (if value = .null then Dict.has held key = true else ¬ SameEntry (held.lookup key) (some value)) :=
        fun moved => still ⟨key, value, named, moved⟩
      by_cases gone : value = .null
      · rw [if_pos gone] at entry
        have absent : held.lookup key = none := Option.not_isSome_iff_eq_none.mp entry
        simp [gone, absent, SameEntry]
      · rw [if_neg gone, not_not] at entry
        simpa [gone] using entry

theorem requireRestatementAuthority_changes {block : Dict} {u : Unit}
    (accepted : requireRestatementAuthority block = .ok u) :
    block.has "before" = false ∨ Json.pyEq (block.get "before") (block.get "after") = false := by
  have rest := gate_passed (gate_passed (gate_passed accepted))
  exact require_ok_iff.mp rest

theorem requireSomethingToRestate_ok {block : Dict} {actual : Json} {u : Unit}
    (accepted : requireSomethingToRestate block actual = .ok u) :
    (block.get "before").isObj = true ∧ actual.isObj = true ∨ isBlank actual = false := by
  unfold requireSomethingToRestate at accepted
  split at accepted
  · next before held isBefore => exact .inl ⟨by rw [isBefore]; rfl, rfl⟩
  · cases accepted
  · exact .inr (require_ok_iff.mp accepted)

theorem applyRestatement_gated {moment : Moment} {layerId rationale recordedAt : String} {block : Dict}
    {actor : LayerActor} {layer next : Layer} {receipt : Receipt}
    (accepted : applyRestatement env moment layerId block rationale actor recordedAt layer = .ok (next, receipt)) :
    (block.has "before" = false ∨ Json.pyEq (block.get "before") (block.get "after") = false) ∧
      ∀ target, block.get "target" = .str target →
        (block.get "before").isObj = true ∧ (layer.metadata.get target).isObj = true ∨
          isBlank (layer.metadata.get target) = false := by
  rcases bind_ok_iff.mp accepted with ⟨⟨target, event⟩, gated, mutating⟩
  have held := (restatementEvent_ok gated).1
  refine ⟨?_, ?_⟩
  · have rest := gate_passed (gate_passed (gate_passed (gate_passed gated)))
    rcases bind_ok_iff.mp rest with ⟨_, authority, -⟩
    exact requireRestatementAuthority_changes authority
  · intro named same
    rw [same, Json.str.injEq] at held
    subst held
    rcases bind_ok_iff.mp (mutate_ok mutating) with ⟨_, gates, -⟩
    rcases bind_ok_iff.mp (gate_passed gates) with ⟨_, something, -⟩
    have filled := requireSomethingToRestate_ok something
    rwa [Dict.get_remove, if_neg (by decide)] at filled

theorem whole_value_moves {block : Dict} {held : Json}
    (changes : block.has "before" = false ∨ Json.pyEq (block.get "before") (block.get "after") = false)
    (filled : (block.get "before").isObj = true ∧ held.isObj = true ∨ isBlank held = false)
    (fresh : held.isObj = false → Json.pyEq (block.get "before") held = true)
    (flat : held.isObj = false ∨ (block.get "after").isObj = false) :
    Json.pyEq held (block.get "after") = false := by
  by_contra same
  have equal : Json.pyEq held (block.get "after") = true := by simpa using same
  have shape := Json.isObj_congr equal
  have plain : held.isObj = false := by
    rcases flat with plain | plain
    · exact plain
    · rw [shape, plain]
  rcases changes with absent | differ
  · have blank := fresh plain
    rw [Dict.get_of_has_false absent] at blank
    have empty := Json.pyEq_null_left blank
    rw [empty] at filled
    rcases filled with ⟨-, shape⟩ | filled
    · cases shape
    · cases filled
  · rw [Json.pyEq_trans (fresh plain) equal] at differ
    cases differ

/-- An accepted restatement moves its field exactly where its delta says something that the stored map does not. -/
theorem restatement_moves_iff (env : Env) (moment : Moment) (layerId : String) (block : Dict) (rationale : String)
    (actor : LayerActor) (recordedAt : String) (layer next : Layer) (receipt : Receipt) (target : String)
    (named : block.get "target" = .str target)
    (accepted : applyRestatement env moment layerId block rationale actor recordedAt layer = .ok (next, receipt)) :
    ¬ SameValue (layer.metadata.get target) (next.metadata.get target) ↔
      Moves (layer.metadata.get target) (block.get "after") := by
  rcases applyRestatement_gated accepted with ⟨changes, filled⟩
  rcases applyRestatement_ok accepted with ⟨field, event, effect⟩
  have same : field = target := Json.str.inj (effect.blockTarget.symm.trans named)
  subst same
  have stored := effect.metadata field effect.signed
  rw [if_pos rfl] at stored
  rw [stored]
  by_cases flat : (layer.metadata.get field).isObj = false ∨ (block.get "after").isObj = false
  · have replaced : mergeDelta (layer.metadata.get field) (block.get "after") = block.get "after" := by
      rcases flat with plain | plain
      · exact mergeDelta_onto_flat plain _
      · exact mergeDelta_flat _ plain
    have differ := whole_value_moves changes (filled field named) effect.freshWhole flat
    rw [replaced, sameValue_flat flat, differ]
    constructor
    · intro _
      cases held : layer.metadata.get field with
      | obj fields =>
        cases after : block.get "after" with
        | obj entries => simp [held, after, Json.isObj] at flat
        | _ => trivial
      | _ => trivial
    · intro _ contradiction
      cases contradiction
  · cases held : layer.metadata.get field with
    | obj fields =>
      cases after : block.get "after" with
      | obj entries => rw [sameValue_mergeDelta_iff, not_not]
      | _ => simp [after, Json.isObj] at flat
    | _ => simp [held, Json.isObj] at flat

theorem restatement_moves_iff_moveOne : ∃ next receipt,
    applyRestatement referenceEnv unsigned "acme" moveOne "the digest was wrong" verifiedAdmin sampleInstant oneClaim =
      .ok (next, receipt) ∧
    ¬ SameValue (oneClaim.metadata.get "claim_hashes") (next.metadata.get "claim_hashes") := by
  rcases exists_of_isOk moveOne_accepted with ⟨next, stepped⟩
  rcases map_fst_ok stepped with ⟨receipt, accepted⟩
  refine ⟨next, receipt, accepted, ?_⟩
  refine (restatement_moves_iff referenceEnv unsigned "acme" moveOne _ verifiedAdmin sampleInstant oneClaim next receipt
    "claim_hashes" rfl accepted).mpr ?_
  refine ⟨"FIND-1", .str "c", rfl, ?_⟩
  rw [if_neg (by decide)]
  change ¬ Json.pyEq (.str "a") (.str "c") = true
  decide

def moveNothing : Dict := claimBlock [("FIND-1", .str "a")] [("FIND-2", .str "b")]

theorem moveNothing_accepted : ∃ next receipt,
    applyRestatement referenceEnv unsigned "acme" moveNothing "the digest was wrong" verifiedAdmin sampleInstant
      twoClaims = .ok (next, receipt) ∧
    SameValue (twoClaims.metadata.get "claim_hashes") (next.metadata.get "claim_hashes") := by
  have facts : (okAnd (applyRestatement referenceEnv unsigned "acme" moveNothing "the digest was wrong" verifiedAdmin
      sampleInstant twoClaims) fun answer =>
        decide (answer.1.metadata.get "claim_hashes" = twoClaims.metadata.get "claim_hashes")) = true := by
    decide +kernel
  rcases okAnd_iff.mp facts with ⟨⟨next, receipt⟩, accepted, same⟩
  refine ⟨next, receipt, accepted, ?_⟩
  rw [decide_eq_true_eq] at same
  rw [same]
  intro key
  exact SameEntry.refl _

end LedgerProof
