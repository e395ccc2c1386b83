import TraustLedger.Queries
import TraustLedger.Proofs.AppendOnly
import TraustLedger.Proofs.ReferenceEnv

namespace LedgerProof

open Python Runs Logs LedgerModel

variable {env : Env} {findingRef sourceType : Option String}

def loadHeld (env : Env) (layer : Layer) (_ : String) : Outcome Layer := do
  require (env.contracts.validateLayer layer = true) (.validation "invalid complete layer")
  return layer

/-- A reader that takes page after page until one is short, while others write between two pages: where it stands,
    the layer it left, what it has read from there on, the layer of its last page, and whether that page was short. -/
inductive PageReads (env : Env) (layerId : String) (findingRef sourceType : Option String) (limit : Nat) :
    Nat → Layer → List Dict → Layer → Bool → Prop
  | pause {offset : Nat} {layer : Layer} : PageReads env layerId findingRef sourceType limit offset layer [] layer false
  | last {offset : Nat} {layer : Layer} {calls : List Call} {page : EventsResponse}
      (asked : queryLayerEvents (loadHeld env (run (step env) layer calls)) layerId findingRef sourceType limit offset =
        .ok page)
      (short : page.events.length < limit) :
      PageReads env layerId findingRef sourceType limit offset layer page.events (run (step env) layer calls) true
  | more {offset : Nat} {layer final : Layer} {calls : List Call} {page : EventsResponse} {rest : List Dict}
      {finished : Bool}
      (asked : queryLayerEvents (loadHeld env (run (step env) layer calls)) layerId findingRef sourceType limit offset =
        .ok page)
      (full : page.events.length = limit)
      (later : PageReads env layerId findingRef sourceType limit (offset + limit) (run (step env) layer calls) rest final
        finished) :
      PageReads env layerId findingRef sourceType limit offset layer (page.events ++ rest) final finished

theorem slice_window {α : Type} (items : List α) (offset limit : Nat) :
    slice items offset (offset + limit) = (items.drop offset).take limit := by
  have start : ¬ ((offset : Int) < 0) := by omega
  have stop : ¬ ((offset : Int) + limit < 0) := by omega
  simp only [slice, start, stop, if_false]
  rw [Int.toNat_natCast, show ((offset : Int) + limit).toNat = offset + limit by omega, List.drop_take]
  congr
  omega

theorem query_held {layer : Layer} (valid : env.contracts.validateLayer layer = true) (layerId : String)
    (limit offset : Nat) :
    queryLayerEvents (loadHeld env layer) layerId findingRef sourceType limit offset =
      .ok ⟨((filterEvents findingRef sourceType layer.events).drop offset).take limit,
        (filterEvents findingRef sourceType layer.events).length, layerId⟩ := by
  rw [← slice_window]
  simp [queryLayerEvents, loadHeld, require, valid, bind, Except.bind, pure, Except.pure]

theorem page_events {layer : Layer} {layerId : String} {limit offset : Nat} {page : EventsResponse}
    (asked : queryLayerEvents (loadHeld env layer) layerId findingRef sourceType limit offset = .ok page) :
    page.events = ((filterEvents findingRef sourceType layer.events).drop offset).take limit := by
  obtain ⟨held, loading, rest⟩ := bind_ok_iff.mp asked
  have same := gate_passed loading
  cases same
  cases rest
  exact slice_window _ offset limit

theorem filterEvents_grows {P : Dict → Prop} {before after : List Dict} (grows : Grows Identified P before after) :
    Grows Identified P (filterEvents findingRef sourceType before) (filterEvents findingRef sourceType after) := by
  apply grows.filter
  intro old new same
  have read : ∀ key, key ≠ "fingerprint" → key ≠ "fingerprint_algo" → new.get key = old.get key := by
    intro key notPrint notAlgo
    rw [Dict.get, Dict.get, same.frame key notPrint notAlgo]
  simp only [eventSourceType, read "finding_ref" (by decide) (by decide), read "source" (by decide) (by decide)]

theorem PageReads.grows {layerId : String} {limit offset : Nat} {layer final : Layer} {events : List Dict}
    {finished : Bool} (reads : PageReads env layerId findingRef sourceType limit offset layer events final finished) :
    Grows Identified (fun _ => True) layer.events final.events := by
  induction reads with
  | pause => exact .refl Identified.refl _
  | last asked short => exact run_grows _ _
  | more asked full later ih =>
    apply Grows.trans _ _ (run_grows _ _) ih
    · exact fun _ _ _ first second => first.trans second
    · exact fun _ _ _ _ => trivial

theorem filtered_length_le (layer : Layer) (calls : List Call) :
    (filterEvents findingRef sourceType layer.events).length ≤
      (filterEvents findingRef sourceType (run (step env) layer calls).events).length := by
  have grown : Grows Identified (fun _ => True) layer.events (run (step env) layer calls).events := run_grows layer calls
  exact (filterEvents_grows grown).length_le

theorem PageReads.window {layerId : String} {limit offset : Nat} {layer final : Layer} {events : List Dict}
    {finished : Bool} (reads : PageReads env layerId findingRef sourceType limit offset layer events final finished)
    (inside : offset ≤ (filterEvents findingRef sourceType layer.events).length) :
    List.Forall₂ Identified events
        (((filterEvents findingRef sourceType final.events).drop offset).take events.length) ∧
      (finished = true → offset + events.length = (filterEvents findingRef sourceType final.events).length) := by
  induction reads with
  | pause =>
    refine ⟨by simp, fun stopped => ?_⟩
    cases stopped
  | @last offset layer calls page asked short =>
    have shown := page_events asked
    have grown := @filtered_length_le env findingRef sourceType layer calls
    have count : page.events.length =
        min limit ((filterEvents findingRef sourceType (run (step env) layer calls).events).length - offset) := by
      rw [shown, List.length_take, List.length_drop]
    constructor
    · rw [count, ← List.length_drop, ← List.take_eq_take_min, ← shown]
      exact List.forall₂_same.mpr fun event _ => .refl event
    · intro _
      omega
  | @more offset layer final calls page rest finished asked full later ih =>
    have shown := page_events asked
    have grown := @filtered_length_le env findingRef sourceType layer calls
    have count : page.events.length =
        min limit ((filterEvents findingRef sourceType (run (step env) layer calls).events).length - offset) := by
      rw [shown, List.length_take, List.length_drop]
    obtain ⟨read, complete⟩ := ih (by omega)
    -- The page shows the same entries in the last layer, where the rest follows it.
    have still : List.Forall₂ Identified page.events
        (((filterEvents findingRef sourceType final.events).drop offset).take limit) := by
      rw [shown]
      exact (filterEvents_grows later.grows).window (by omega)
    constructor
    · rw [List.length_append, full, List.take_add, List.drop_drop]
      exact List.rel_append still read
    · intro stopped
      have total := complete stopped
      rw [List.length_append]
      omega

/-- Paging by offset reads the log exactly, however others write between two pages: the events read are the first ones
    of the selected log as it stands at the last page, each once, in order and as it was written up to a fingerprint
    it got since; and when a short page ends the reading, they are all there are. -/
theorem paged_events_exact {layerId : String} {limit : Nat} {start final : Layer} {events : List Dict}
    {finished : Bool} (reads : PageReads env layerId findingRef sourceType limit 0 start events final finished) :
    List.Forall₂ Identified events
        ((filterEvents findingRef sourceType final.events).take events.length) ∧
      (finished = true → events.length = (filterEvents findingRef sourceType final.events).length) := by
  obtain ⟨read, complete⟩ := reads.window (Nat.zero_le _)
  rw [List.drop_zero] at read
  rw [Nat.zero_add] at complete
  exact ⟨read, complete⟩

def movedOnce : Layer := run (step referenceEnv) oneClaim [restateCall moveOne]

theorem paged_events_exact_move : ∃ events final,
    PageReads referenceEnv "acme" none (some "restatement") 1 0 oneClaim events final true ∧ events.length = 1 ∧
    List.Forall₂ Identified events ((filterEvents none (some "restatement") final.events).take events.length) ∧
    events.length = (filterEvents none (some "restatement") final.events).length := by
  have one : (filterEvents none (some "restatement")
      (run (step referenceEnv) oneClaim [restateCall moveOne]).events).length = 1 := by
    decide +kernel
  have stays : ∀ layer, run (step referenceEnv) layer [] = layer := fun _ => rfl
  have same : (filterEvents none (some "restatement") (run (step referenceEnv) movedOnce []).events).length = 1 := by
    rw [stays, movedOnce]
    exact one
  have once := run_valid (reachable_valid oneClaim_reachable) [restateCall moveOne]
  have still := @run_valid referenceEnv movedOnce once []
  have last := @PageReads.last referenceEnv "acme" none (some "restatement") 1 1 movedOnce [] _
    (query_held still "acme" 1 1) (by simp [same])
  have reads := @PageReads.more referenceEnv "acme" none (some "restatement") 1 0 oneClaim _ [restateCall moveOne] _ _ _
    (query_held once "acme" 1 0) (by simp [one]) last
  obtain ⟨read, complete⟩ := paged_events_exact reads
  exact ⟨_, _, reads, by simp [one, same], read, complete rfl⟩

end LedgerProof
