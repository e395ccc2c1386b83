import TraustLedger.Proofs.ReviewQueue

namespace LedgerProof

open Hashing Python Runs Logs LedgerModel

variable {env : Env} {layer next : Layer}

def Evidenced (events : List Dict) (ref : Json) : Prop :=
  ∃ event ∈ events, Json.pyEq (event.get "finding_ref") ref = true

/-- What an outcome has to show: an event under the reference of a confirmed item, a note on a rejected one. -/
def JustifiedItem (evidenced : Json → Prop) : Json → Prop
  | .obj item =>
    (Dict.get item "status" = .str "confirmed" → evidenced (Dict.get item "suggested_finding_ref")) ∧
    (Dict.get item "status" = .str "rejected" →
      ∃ note, Dict.get item "resolution_note" = .str note ∧ named (some note) = true)
  | _ => True

def Justified (layer : Layer) : Prop := ∀ entry ∈ layer.needsReview, JustifiedItem (Evidenced layer.events) entry

def submittedItems : Call → List Json
  | .submitBatch _ _ body _ => body.needsReview.map .obj
  | .cmdSubmitQueue _ _ queue _ => queue
  | _ => []

def besides (env : Env) : Call → List Dict
  | .submitBatch _ _ body actor => batchEvents env actor body.events
  | _ => []

/-- One of these events is about the reference, and no event about another one, stored or submitted, has its id. -/
def BringsEvidence (H : HashFunction) (layer : Layer) (events : List Dict) (ref : Json) : Prop :=
  ∃ event ∈ events, ∀ id, canonicalId H event = .ok id →
    (∀ stored ∈ layer.events, stored.get "event_id" = .str id → Json.pyEq (stored.get "finding_ref") ref = true) ∧
    ∀ other ∈ events, canonicalId H other = .ok id → Json.pyEq (other.get "finding_ref") ref = true

/-- An item that comes in as confirmed is about an event of the log, or of the same batch; one that comes in as
    rejected has its note. -/
def SubmitsJustified (env : Env) (layer : Layer) (call : Call) : Prop :=
  ∀ entry ∈ submittedItems call, JustifiedItem
    (fun ref => Evidenced layer.events ref ∨ BringsEvidence env.hash layer (besides env call) ref) entry

theorem JustifiedItem.mono {weaker stronger : Json → Prop} (implies : ∀ ref, stronger ref → weaker ref) {entry : Json}
    (justified : JustifiedItem stronger entry) : JustifiedItem weaker entry := by
  cases entry with
  | obj item => exact ⟨fun confirmed => implies _ (justified.1 confirmed), justified.2⟩
  | _ => trivial

theorem JustifiedItem.congr {evidenced : Json → Prop} {item other : Dict}
    (same : ∀ key ∈ ["status", "suggested_finding_ref", "resolution_note"], other.get key = item.get key)
    (justified : JustifiedItem evidenced (.obj item)) : JustifiedItem evidenced (.obj other) := by
  simp only [List.forall_mem_cons] at same
  rcases same with ⟨status, ref, note, -⟩
  simpa only [JustifiedItem, status, ref, note] using justified

theorem Evidenced.grows {events longer : List Dict} {P : Dict → Prop} (grown : Grows Identified P events longer)
    {ref : Json} (evidenced : Evidenced events ref) : Evidenced longer ref := by
  rcases evidenced with ⟨event, stored, same⟩
  rcases List.mem_iff_getElem?.mp stored with ⟨index, found⟩
  rcases grown.getElem? found with ⟨kept, held, identified⟩
  refine ⟨kept, List.mem_iff_getElem?.mpr ⟨index, held⟩, ?_⟩
  rwa [Dict.get, identified.frame _ (by decide) (by decide), ← Dict.get]

theorem BringsEvidence.lands {H : HashFunction} {events : List Dict} {ref : Json} {appended : Layer}
    {ids : List String} (brings : BringsEvidence H layer events ref)
    (appending : appendMany H layer events = .ok (appended, ids)) : Evidenced appended.events ref := by
  rcases brings with ⟨event, offered, only⟩
  rcases appendMany_holds appending offered with ⟨id, computed, held⟩
  rcases only id computed with ⟨storedOnly, offeredOnly⟩
  rcases List.any_eq_true.mp held with ⟨stored, member, same⟩
  rw [Json.pyEq_str, decide_eq_true_eq] at same
  rcases appendMany_ok appending with ⟨added, rfl, offers⟩
  rcases List.mem_append.mp member with old | new
  · exact ⟨stored, member, storedOnly stored old same⟩
  · rcases offers stored new with ⟨body, fromBody, own, preparation⟩
    have named : stored.get "event_id" = .str own := by
      rw [Dict.get, prepareEvent_lookup preparation (by decide)]
      rfl
    rw [named, Json.str.injEq] at same
    subst same
    have about := offeredOnly body fromBody (prepareEvent_ok preparation).2.1
    refine ⟨stored, member, ?_⟩
    rwa [Dict.get, prepareEvent_lookup preparation (by decide), if_neg (by decide), ← Dict.get]

theorem mem_queueItems {queue items : List Json} {entry : Json} (member : entry ∈ queueItems queue items) :
    entry ∈ queue ∨ ∃ item : Dict, .obj item ∈ items ∧ entry = .obj (item.setDefault "status" (.str "pending")) := by
  induction items generalizing queue with
  | nil => exact .inl member
  | cons first items ih =>
    cases first with
    | obj item =>
      rw [queueItems] at member
      rcases ih member with held | ⟨other, listed, same⟩
      · split at held
        · exact .inl held
        · rcases List.mem_append.mp held with old | new
          · exact .inl old
          · exact .inr ⟨item, List.mem_cons_self, List.mem_singleton.mp new⟩
      · exact .inr ⟨other, List.mem_cons_of_mem _ listed, same⟩
    | _ =>
      rcases ih member with held | ⟨other, listed, same⟩
      · exact .inl held
      · exact .inr ⟨other, List.mem_cons_of_mem _ listed, same⟩

theorem JustifiedItem.pending {evidenced : Json → Prop} {item : Dict} (justified : JustifiedItem evidenced (.obj item)) :
    JustifiedItem evidenced (.obj (item.setDefault "status" (.str "pending"))) := by
  by_cases known : item.has "status" = true
  · rw [Dict.setDefault, if_pos known]
    exact justified
  · rw [Dict.setDefault, if_neg known]
    exact ⟨fun confirmed => by simp at confirmed, fun rejected => by simp at rejected⟩

theorem mem_closeFirst {itemKey : List Json} {status : String} {note : Option String} {queue : List Json} {entry : Json}
    (member : entry ∈ closeFirst itemKey status note queue) : entry ∈ queue ∨
      ∃ item, queue.find? (isPendingMatch itemKey) = some (.obj item) ∧ entry = .obj (closedItem status note item) := by
  induction queue with
  | nil => cases member
  | cons first queue ih =>
    rw [List.find?_cons]
    cases pending : isPendingMatch itemKey first with
    | true =>
      cases first with
      | obj item =>
        rw [closeFirst, if_pos pending] at member
        rcases List.mem_cons.mp member with rfl | later
        · exact .inr ⟨item, rfl, rfl⟩
        · exact .inl (List.mem_cons_of_mem _ later)
      | _ => cases pending
    | false =>
      simp only [closeFirst, pending, Bool.false_eq_true, if_false, List.mem_cons] at member
      rcases member with rfl | later
      · exact .inl List.mem_cons_self
      · rcases ih later with held | found
        · exact .inl (List.mem_cons_of_mem _ held)
        · exact .inr found

theorem closedItem_justified {events : List Dict} {item : Dict} {status : String} {note : Option String}
    (known : status = "confirmed" ∨ status = "rejected") (noted : status ≠ "rejected" ∨ named note = true)
    (recorded : status ≠ "confirmed" ∨ ((item.get "suggested_finding_ref").truthy = true ∧
      events.any (fun event => Json.pyEq (event.get "finding_ref") (item.get "suggested_finding_ref")) = true)) :
    JustifiedItem (Evidenced events) (.obj (closedItem status note item)) := by
  have outcome : (closedItem status note item).get "status" = .str status := by
    unfold closedItem
    split <;> [split_ifs; skip] <;> simp
  have ref : (closedItem status note item).get "suggested_finding_ref" = item.get "suggested_finding_ref" := by
    unfold closedItem
    split <;> [split_ifs; skip] <;> simp
  refine ⟨fun confirmed => ?_, fun rejected => ?_⟩
  · rw [outcome, Json.str.injEq] at confirmed
    subst confirmed
    rw [ref]
    rcases recorded with other | ⟨-, held⟩
    · exact absurd rfl other
    · exact List.any_eq_true.mp held
  · rw [outcome, Json.str.injEq] at rejected
    subst rejected
    cases note with
    | none => simp [named, strip, stripChars, chars] at noted
    | some text =>
      have filled : text ≠ "" := by
        rintro rfl
        simp [named, strip, stripChars, chars] at noted
      exact ⟨text, by simp [closedItem, filled], by simpa using noted⟩

theorem resolveReviewItem_justified {itemKey : List Json} {status : String} {note : Option String}
    (resolved : resolveReviewItem layer itemKey status note = .ok (some next)) (justified : Justified layer) :
    Justified next := by
  have events := (resolveReviewItem_ok resolved).2
  unfold resolveReviewItem at resolved
  rcases bind_ok_iff.mp resolved with ⟨_, known, resolved⟩
  rcases bind_ok_iff.mp resolved with ⟨_, noted, resolved⟩
  rw [require_ok_iff] at known noted
  cases found : layer.needsReview.find? (isPendingMatch itemKey) with
  | none =>
    rw [found] at resolved
    cases resolved
  | some target =>
    cases target with
    | obj item =>
      rw [found] at resolved
      rcases bind_ok_iff.mp resolved with ⟨_, recorded, result⟩
      rw [require_ok_iff] at recorded
      cases result
      intro entry member
      rcases mem_closeFirst member with held | ⟨closed, same, rfl⟩
      · exact justified entry held
      · rw [found, Option.some.injEq, Json.obj.injEq] at same
        subst same
        rw [← events] at recorded
        exact closedItem_justified known noted recorded
    | _ =>
      rw [found] at resolved
      cases resolved

theorem appendOne_review {H : HashFunction} {event : Dict} {appended : Layer} {id : String}
    (accepted : appendOne H layer event = .ok (appended, id)) : appended.needsReview = layer.needsReview := by
  rcases appendOne_ok accepted with ⟨prepared, -, rfl⟩
  rfl

theorem step_queue {call : Call} (accepted : step env layer call = .ok next) :
    next.needsReview = layer.needsReview ∨
    (∃ defaults : List (String × Json), (∀ entry ∈ defaults, entry.1 ∈ ["submitted_by", "source_ref", "queued_at"]) ∧
      next.needsReview = queueItems layer.needsReview ((submittedItems call).map (withDefaults defaults))) ∨
    ∃ itemKey status note, resolveReviewItem layer itemKey status note = .ok (some next) := by
  cases call with
  | restate moment layerId block rationale actor recordedAt =>
    rcases map_fst_ok accepted with ⟨receipt, accepted⟩
    rcases bind_ok_iff.mp accepted with ⟨⟨target, event⟩, -, mutating⟩
    rcases bind_ok_iff.mp (gate_passed (mutate_ok mutating)) with ⟨⟨changed, id⟩, appending, mutation⟩
    rcases bind_ok_iff.mp mutation with ⟨⟨finalized, root⟩, finalizing, result⟩
    cases result
    rcases bind_ok_iff.mp appending with ⟨⟨appended, own⟩, appending, covered⟩
    cases gate_passed covered
    have kept := finalizeLayer_review finalizing
    have queue := appendOne_review appending
    exact .inl (kept.trans queue)
  | patch moment layerId updates =>
    rcases map_fst_ok accepted with ⟨receipt, accepted⟩
    have mutation := gate_passed (mutate_ok (rethrow_ok_iff.mp accepted))
    rcases bind_ok_iff.mp mutation with ⟨⟨finalized, root⟩, finalizing, result⟩
    cases result
    have kept := finalizeLayer_review finalizing
    exact .inl kept
  | submitEvent moment kind event actor =>
    rcases map_fst_ok accepted with ⟨receipt, accepted⟩
    rcases bind_ok_iff.mp (gate_passed (rethrow_ok_iff.mp accepted)) with ⟨known, -, accepted⟩
    rcases bind_ok_iff.mp accepted with ⟨⟨findingRef, payload, validity⟩, -, accepted⟩
    rcases bind_ok_iff.mp (ite_bind_ok (gate_passed (mutate_ok accepted))) with ⟨⟨draft, id⟩, appending, mutation⟩
    rcases bind_ok_iff.mp mutation with ⟨⟨finalized, root⟩, finalizing, result⟩
    cases result
    exact .inl ((finalizeLayer_review finalizing).trans (appendOne_review appending))
  | submitBatch moment layerId body actor =>
    rcases map_fst_ok accepted with ⟨receipt, accepted⟩
    refine .inr (.inl ⟨[("submitted_by", .obj (env.contracts.actorToDict actor)), ("source_ref", .str body.sourceRef),
      ("queued_at", .str body.recordedAt)], by simp, ?_⟩)
    rw [submittedItems, List.map_map]
    exact submitBatch_queue accepted
  | cmdSubmitEvents layerId events actor =>
    rcases map_fst_ok accepted with ⟨receipt, accepted⟩
    rcases cmdSubmitEvents_ok_iff.mp accepted with ⟨ids, -, appending, -⟩
    rcases appendMany_ok appending with ⟨added, rfl, -⟩
    exact .inl rfl
  | cmdSubmitQueue layerId sourceRef queue actor =>
    rcases map_fst_ok accepted with ⟨receipt, accepted⟩
    rcases cmdSubmitQueue_ok_iff.mp accepted with ⟨rfl, -⟩
    exact .inr (.inl ⟨[("submitted_by", .obj (env.contracts.actorToDict actor)), ("source_ref", .str sourceRef)],
      by simp, rfl⟩)
  | stampIdentities moment layerId fingerprints =>
    rcases map_fst_ok accepted with ⟨receipt, accepted⟩
    rcases bind_ok_iff.mp (mutate_ok (rethrow_ok_iff.mp accepted)) with ⟨⟨finalized, root⟩, finalizing, result⟩
    cases result
    have kept := finalizeLayer_review finalizing
    exact .inl kept
  | sign moment layerId =>
    rcases map_fst_ok accepted with ⟨receipt, accepted⟩
    rcases bind_ok_iff.mp (mutate_ok (rethrow_ok_iff.mp accepted)) with ⟨⟨finalized, root⟩, finalizing, result⟩
    cases result
    have kept := finalizeLayer_review finalizing
    exact .inl kept
  | signEndpoint moment layerId rekor =>
    rcases map_fst_ok accepted with ⟨attempt, accepted⟩
    rcases bind_ok_iff.mp (gate_passed (mutate_ok (rethrow_ok_iff.mp accepted))) with
      ⟨⟨stamped, dropped⟩, stamp, signing⟩
    cases gate_passed signing
    exact .inl ((signIfConfigured_review _ _ stamped).trans (review_stamped stamp))
  | resolve moment layerId key decision note =>
    rcases bind_ok_iff.mp (gate_passed (gate_passed accepted)) with ⟨itemKey, -, accepted⟩
    rcases bind_ok_iff.mp accepted with ⟨⟨resolved, changed⟩, mutation, accepted⟩
    cases gate_passed accepted
    rcases bind_ok_iff.mp (mutate_ok (rethrow_ok_iff.mp mutation)) with ⟨answer, resolving, result⟩
    cases answer with
    | none =>
      cases result
      exact .inl rfl
    | some closed =>
      cases result
      exact .inr (.inr ⟨itemKey, decision, _, resolving⟩)

theorem step_evidence {call : Call} {ref : Json} (accepted : step env layer call = .ok next)
    (brings : Evidenced layer.events ref ∨ BringsEvidence env.hash layer (besides env call) ref) :
    Evidenced next.events ref := by
  rcases brings with stored | brought
  · exact stored.grows (step_grows accepted)
  · cases call with
    | submitBatch moment layerId body actor =>
      rcases map_fst_ok accepted with ⟨receipt, accepted⟩
      rcases submitBatch_log accepted with ⟨appended, ids, appending, events⟩
      rw [events]
      exact brought.lands appending
    | _ =>
      rcases brought with ⟨event, offered, -⟩
      cases offered

theorem step_justified {call : Call} (justified : Justified layer) (submits : SubmitsJustified env layer call)
    (accepted : step env layer call = .ok next) : Justified next := by
  have kept : ∀ entry ∈ layer.needsReview, JustifiedItem (Evidenced next.events) entry := by
    intro entry held
    exact (justified entry held).mono fun ref evidenced => evidenced.grows (step_grows accepted)
  rcases step_queue accepted with same | ⟨defaults, own, queue⟩ | ⟨itemKey, status, note, resolved⟩
  · intro entry member
    rw [same] at member
    exact kept entry member
  · intro entry member
    rw [queue] at member
    rcases mem_queueItems member with held | ⟨item, listed, rfl⟩
    · exact kept entry held
    · rcases List.mem_map.mp listed with ⟨raw, offered, filled⟩
      cases raw with
      | obj given =>
        cases filled
        have justifies := (submits (.obj given) offered).mono fun ref => step_evidence accepted
        refine JustifiedItem.pending (justifies.congr ?_)
        intro key named
        rw [Dict.get, Dict.get, lookup_defaults]
        intro entry member same
        have foreign := own entry member
        rw [← same] at foreign
        simp only [List.mem_cons, List.not_mem_nil, or_false] at named foreign
        rcases named with rfl | rfl | rfl <;> simp at foreign
      | _ => cases filled
  · exact resolveReviewItem_justified resolved justified

/-- In every run from an initialized layer whose submissions bring no unjustified outcome, every outcome in every
    queue is justified. -/
theorem review_outcomes_justified (env : Env) (layerId : String) (shell start : Layer)
    (initialized : initializeLayer env layerId none shell = .ok start) (calls : List Call)
    (along : Along (step env) (SubmitsJustified env) start calls) :
    ∀ layer ∈ visited (step env) start calls, Justified layer := by
  have empty : start.needsReview = [] := by
    have accepted := gate_passed (rethrow_ok_iff.mp initialized)
    rcases bind_ok_iff.mp accepted with ⟨_, blank, stored⟩
    cases gate_passed stored
    exact (require_ok_iff.mp blank).2
  refine visited_invariant (fun _ _ _ justified submits accepted => step_justified justified submits accepted) ?_ along
  simp [Justified, empty]

def queueCall (item : Dict) : Call := .submitBatch unsigned "acme" ⟨"scan-1", sampleInstant, [], [item]⟩ scannerAccount

theorem review_outcomes_justified_pending : initializeLayer referenceEnv "acme" none oneClaim = .ok oneClaim ∧
    ∀ layer ∈ visited (step referenceEnv) oneClaim [queueCall reviewItem,
      .resolve unsigned "acme" (some (.arr (reviewDoor.key referenceEnv reviewItem))) "rejected" "no such flaw"],
      Justified layer := by
  refine ⟨rfl, review_outcomes_justified referenceEnv "acme" oneClaim oneClaim rfl _ ⟨fun _ => ?_, fun _ => ?_, trivial⟩⟩
  · intro entry member
    change entry ∈ [Json.obj reviewItem] at member
    rw [List.mem_singleton] at member
    subst member
    exact ⟨fun confirmed => (by cases confirmed), fun rejected => (by cases rejected)⟩
  · intro entry member
    cases member

def confirmedItem : Dict := reviewItem.set "status" (.str "confirmed")

theorem confirmed_without_event : ∃ layer, Reachable referenceEnv layer ∧
    run (step referenceEnv) oneClaim [queueCall confirmedItem] = layer ∧ ¬ Justified layer := by
  refine ⟨_, ⟨"acme", oneClaim, oneClaim, [queueCall confirmedItem], rfl, rfl⟩, rfl, ?_⟩
  have stored : (run (step referenceEnv) oneClaim [queueCall confirmedItem]).events = [] ∧
      ((run (step referenceEnv) oneClaim [queueCall confirmedItem]).needsReview.any fun
        | .obj item => decide (Dict.get item "status" = .str "confirmed")
        | _ => false) = true := by
    decide +kernel
  rcases stored with ⟨empty, queued⟩
  intro justified
  rcases List.any_eq_true.mp queued with ⟨entry, member, confirmed⟩
  cases entry with
  | obj item =>
    rcases (justified (.obj item) member).1 (of_decide_eq_true confirmed) with ⟨event, held, -⟩
    rw [empty] at held
    cases held
  | _ => cases confirmed

end LedgerProof
