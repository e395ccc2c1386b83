import TraustLedger.Library.Chains
import TraustLedger.Proofs.FindingGroups

namespace LedgerProof

open Hashing Python Runs Chains Sha256 LedgerModel

/-- The findings follow the aliases: none of them is superseded, and every event is counted in the one at the end
    of the chain from its reference. An event under a blank reference belongs to no chain, unless an alias has it. -/
structure AliasesFollowed (evidence : List Dict) (aliases : Aliases) (groups : List (Json × List Dict))
    (findings : List FindingDisposition) : Prop where
  live : ∀ finding ∈ findings, successor aliases (.str finding.findingRef) = none
  counted : ∀ event ∈ evidence, ((refOf event).truthy = true ∨ successor aliases (refOf event) ≠ none) →
    ∀ last, EndsAt (successor aliases) (refOf event) last →
      ∃ held, (last, held) ∈ groups ∧ event ∈ held ∧
        ∃ finding ∈ findings, last = .str finding.findingRef ∧ finding.eventCount = held.length

def namedSuccessors (aliases : Aliases) : List Json :=
  aliases.map fun entry => match entry.2 with
    | .obj mapping => Dict.get mapping "new_id"
    | _ => .null

theorem successor_named {aliases : Aliases} {ref next : Json} (link : successor aliases ref = some next)
    (moved : next ≠ ref) : next ∈ namedSuccessors aliases := by
  unfold successor Aliases.get at link
  cases found : aliases.find? fun entry => Json.pyEq entry.1 ref with
  | none =>
    rw [found] at link
    cases link
  | some entry =>
    simp only [found, Option.map_some, Option.getD_some] at link
    split at link
    · next mapping held =>
      split at link
      · have target := Option.some.inj link
        refine List.mem_map.mpr ⟨entry, List.mem_of_find?_eq_some found, ?_⟩
        simp only [held, Dict.get]
        cases named : List.lookup "new_id" mapping with
        | none =>
          simp only [Dict.getD, named, Option.getD_none] at target
          exact absurd target.symm moved
        | some value =>
          simp only [Dict.getD, named, Option.getD_some] at target
          exact target
      · cases link
    · cases link

theorem successor_ends {aliases : Aliases} (acyclic : Acyclic (successor aliases)) (ref : Json) :
    ∃ last, EndsAt (successor aliases) ref last := by
  refine acyclic.exists_end (List.finite_toSet (namedSuccessors aliases)) ?_ ref
  intro item next link
  refine successor_named link ?_
  rintro rfl
  exact acyclic _ (.single link)

theorem attributed_of_none {aliases : Aliases} {ref : Json} (live : successor aliases ref = none) :
    attributed aliases ref = ref := by
  rw [attributed, live, Option.getD_none]

theorem attributed_of_some {aliases : Aliases} {ref next : Json} (link : successor aliases ref = some next) :
    attributed aliases ref = next := by
  rw [attributed, link, Option.getD_some]

theorem attributed_of_direct {aliases : Aliases} {ref : Json}
    (direct : ∀ next, successor aliases ref = some next → next.truthy = true ∧ successor aliases next = none) :
    EndsAt (successor aliases) ref (attributed aliases ref) ∧
      (∀ last, EndsAt (successor aliases) ref last → last = attributed aliases ref) ∧
      (ref.truthy = true ∨ successor aliases ref ≠ none → (attributed aliases ref).truthy = true) := by
  cases link : successor aliases ref with
  | none =>
    rw [attributed_of_none link]
    refine ⟨(endsAt_of_none link).mpr rfl, fun last ended => (endsAt_of_none link).mp ended, ?_⟩
    intro inChain
    simpa using inChain
  | some next =>
    have final := direct next link
    rw [attributed_of_some link]
    refine ⟨(endsAt_of_some link).mpr ((endsAt_of_none final.2).mpr rfl), ?_, fun _ => final.1⟩
    intro last ended
    exact (endsAt_of_none final.2).mp ((endsAt_of_some link).mp ended)

/-- Aliases are followed exactly where one step is enough: no event's reference starts a chain of two confirmed
    aliases, or is renamed to nothing. -/
theorem aliases_followed_iff (contracts : Contracts) (fromIsoFormat : String → Option Int) (nowText : String)
    (layer : Layer) (findings : List FindingDisposition) (summary : FindingsSummary)
    (resolved : resolveLayerFindings contracts fromIsoFormat nowText layer = .ok (findings, summary))
    (evidence : List Dict) (aliases : Aliases) (groups : List (Json × List Dict))
    (applied : applyRestatements layer.events = .ok evidence)
    (merged : layerAliases layer.metadata evidence = .ok aliases) (walked : byFinding aliases evidence = .ok groups)
    (acyclic : Acyclic (successor aliases)) :
    AliasesFollowed evidence aliases groups findings ↔
      ∀ event ∈ evidence, ∀ next, successor aliases (refOf event) = some next →
        next.truthy = true ∧ successor aliases next = none := by
  have origin := Resolved.of_run resolved applied merged walked
  constructor
  · intro followed event stored next link
    rcases successor_ends acyclic (refOf event) with ⟨last, ended⟩
    obtain ⟨held, known, member, -⟩ :=
      followed.counted event stored (.inr (by simp [link])) last ended
    rcases origin.mem_group known member with ⟨-, target, named⟩
    rw [attributed_of_some link] at target
    exact ⟨target ▸ named, target ▸ ended.2⟩
  · intro direct
    refine ⟨?_, ?_⟩
    · intro finding member
      rcases origin.listed finding member with ⟨held, known⟩
      rcases (byFinding_ok walked).keys _ known with ⟨event, stored, key, -⟩
      have ended := (attributed_of_direct (direct event stored)).1
      rw [← key] at ended
      exact ended.2
    · intro event stored inChain last ended
      rcases attributed_of_direct (direct event stored) with ⟨-, unique, named⟩
      have target := unique last ended
      rcases origin.group_of stored (named inChain) with ⟨held, known, member⟩
      rcases origin.counted _ known with ⟨finding, listed, text, count⟩
      exact ⟨held, target ▸ known, member, finding, listed, target.trans text, count⟩

theorem acyclic_of_falls {aliases : Aliases} (rank : Json → Nat)
    (falls : (aliases.all fun entry => isStr entry.1 &&
      (successor aliases entry.1).all fun next => decide (rank next < rank entry.1)) = true) :
    Acyclic (successor aliases) := by
  refine acyclic_of_rank rank (fun ref next link => ?_)
  have some_entry : (aliases.find? fun entry => Json.pyEq entry.1 ref).isSome = true := by
    cases found : aliases.find? fun entry => Json.pyEq entry.1 ref with
    | none => simp [successor, Aliases.get, found] at link
    | some entry => rfl
  rcases Option.isSome_iff_exists.mp some_entry with ⟨entry, found⟩
  have same : Json.pyEq entry.1 ref = true := by simpa using List.find?_some found
  have test := List.all_eq_true.mp falls entry (List.mem_of_find?_eq_some found)
  rcases Bool.and_eq_true_iff.mp test with ⟨text, lower⟩
  have key : ref = entry.1 := by
    cases held : entry.1 with
    | str name => simpa [held] using Json.pyEq_symm same
    | _ => simp [held, isStr] at text
  subst key
  simpa [link] using lower

def reviewer : Dict := Dict.ofList [("kind", .str "human"), ("identity", .str "alice"), ("identity_verified", .bool true)]

def confirmedRename (oldRef newRef recordedAt : String) : Dict :=
  makeAliasEvent sha256 oldRef newRef "fingerprint" recordedAt ("rebaseline:" ++ oldRef) reviewer "same flaw, file moved"
    ⟨some true, none, none, none, none, none⟩

def renamedLayer : Layer := ⟨[], [proofRun sampleInstant, confirmedRename "FIND-1" "FIND-2" morning], []⟩

def renamedTwiceLayer : Layer :=
  ⟨[], [proofRun sampleInstant, confirmedRename "FIND-1" "FIND-2" morning,
    confirmedRename "FIND-2" "FIND-3" noon], []⟩

def auditRank (ref : Json) : Nat := if ref = .str "FIND-1" then 2 else if ref = .str "FIND-2" then 1 else 0

def testAliases (layer : Layer) (test : List Dict → Aliases → Bool) : Bool :=
  okAnd (applyRestatements layer.events) fun evidence =>
    okAnd (layerAliases layer.metadata evidence) (test evidence)

theorem testAliases_sound {contracts : Contracts} {layer : Layer} {evidence : List Dict} {aliases : Aliases}
    {groups : List (Json × List Dict)} {findings : List FindingDisposition} {test : List Dict → Aliases → Bool}
    (passed : testAliases layer test = true)
    (resolved : Resolved contracts layer evidence aliases groups findings) : test evidence aliases = true := by
  rw [testAliases, resolved.applied] at passed
  change okAnd (layerAliases layer.metadata evidence) (test evidence) = true at passed
  rwa [resolved.merged] at passed

theorem aliases_followed_iff_renamed : ∃ findings summary evidence aliases groups,
    resolveLayerFindings referenceContracts clockEnv.fromIsoFormat evening renamedLayer = .ok (findings, summary) ∧
    Resolved referenceContracts renamedLayer evidence aliases groups findings ∧ Acyclic (successor aliases) ∧
    AliasesFollowed evidence aliases groups findings := by
  have facts : (resolveLayerFindings referenceContracts clockEnv.fromIsoFormat evening renamedLayer).isOk = true ∧
      testAliases renamedLayer (fun evidence aliases => (aliases.all fun entry => isStr entry.1 &&
        (successor aliases entry.1).all fun next => decide (auditRank next < auditRank entry.1)) &&
        evidence.all fun event => (successor aliases (refOf event)).all fun next =>
          next.truthy && (successor aliases next).isNone) = true := by
    decide +kernel
  rcases facts with ⟨run, tests⟩
  rcases exists_of_isOk run with ⟨⟨findings, summary⟩, ran⟩
  rcases resolveLayerFindings_ok ran with ⟨evidence, aliases, groups, resolved⟩
  rcases Bool.and_eq_true_iff.mp (testAliases_sound tests resolved) with ⟨falls, direct⟩
  have acyclic := acyclic_of_falls auditRank falls
  refine ⟨findings, summary, evidence, aliases, groups, ran, resolved, acyclic, ?_⟩
  refine (aliases_followed_iff referenceContracts clockEnv.fromIsoFormat evening renamedLayer findings summary ran
    evidence aliases groups resolved.applied resolved.merged resolved.walked acyclic).mpr ?_
  intro event stored next link
  have test := List.all_eq_true.mp direct event stored
  simpa [link] using test

/-- After two renamings the finding is still returned under the name in the middle. -/
theorem renamed_twice_superseded : ∃ findings summary evidence aliases groups,
    resolveLayerFindings referenceContracts clockEnv.fromIsoFormat evening renamedTwiceLayer = .ok (findings, summary) ∧
    Resolved referenceContracts renamedTwiceLayer evidence aliases groups findings ∧ Acyclic (successor aliases) ∧
    ¬ AliasesFollowed evidence aliases groups findings := by
  have facts : (okAnd (resolveLayerFindings referenceContracts clockEnv.fromIsoFormat evening renamedTwiceLayer)
        fun result => result.1.any fun finding => finding.findingRef == "FIND-2") = true ∧
      testAliases renamedTwiceLayer (fun _ aliases => (aliases.all fun entry => isStr entry.1 &&
        (successor aliases entry.1).all fun next => decide (auditRank next < auditRank entry.1)) &&
        (successor aliases (.str "FIND-2")).isSome) = true := by
    decide +kernel
  rcases facts with ⟨run, tests⟩
  rcases okAnd_iff.mp run with ⟨⟨findings, summary⟩, ran, listed⟩
  rcases resolveLayerFindings_ok ran with ⟨evidence, aliases, groups, resolved⟩
  rcases Bool.and_eq_true_iff.mp (testAliases_sound tests resolved) with ⟨falls, superseded⟩
  refine ⟨findings, summary, evidence, aliases, groups, ran, resolved, acyclic_of_falls auditRank falls, ?_⟩
  intro followed
  rcases List.any_eq_true.mp listed with ⟨finding, member, name⟩
  have live := followed.live finding member
  rw [beq_iff_eq.mp name] at live
  rw [live] at superseded
  cases superseded

end LedgerProof
