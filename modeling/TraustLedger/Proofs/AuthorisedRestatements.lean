import TraustLedger.Proofs.DirectoryChecks
import TraustLedger.Proofs.DoorProofs
import TraustLedger.Proofs.ConfiguredProviders
import TraustLedger.Proofs.ReferenceEnv

namespace LedgerProof

open Python Runs LedgerModel

variable {PrivateKey Key : Type}

/-- The authority behind a restatement that came in over the service. -/
structure AdminAct (service : Service Key) (actor : TokenActor) (restatement : Dict) : Prop where
  human : actor.kind = "human"
  verified : isVerified actor.toLayerActor = true
  listed : ∃ admin ∈ service.config.adminIdentities, strip admin ≠ "" ∧
    lowered (strip admin) = lowered (strip (actor.identity.getD ""))
  approved : ∃ names : List String, names.Nodup ∧ service.config.restatementMinApprovers ≤ names.length ∧
    ∀ name ∈ names, name ∈ approvers restatement ∧ name ≠ lowered (strip (actor.identity.getD ""))
  employed : ∀ directory, service.directory = some directory →
    Answers directory (strip (actor.identity.getD "")) statusActive
  ticketed : ticketed (ticketOf restatement) = true

def Restates (service : Service Key) (field : String) (exchange : Exchange PrivateKey Key) : Prop :=
  ∃ layerId restatement findingRef rationale recordedAt actor,
    exchange.request = .restate layerId restatement findingRef rationale recordedAt ∧
    restatement.get "target" = .str field ∧
    resolveActor exchange.env service.trust service.directory exchange.authorization = .ok actor ∧
    AdminAct service actor restatement

section Gates

variable {service : Service Key} {actor : TokenActor} {restatement : Dict}

theorem requireAdmin_ok {admins : List String} {u : Unit} (passed : requireAdmin actor.toLayerActor admins = .ok u) :
    actor.kind = "human" ∧ named actor.identity = true ∧ isVerified actor.toLayerActor = true ∧
      ∃ admin ∈ admins, strip admin ≠ "" ∧ lowered (strip admin) = lowered (strip (actor.identity.getD "")) := by
  obtain ⟨_, human, listed⟩ := bind_ok_iff.mp passed
  obtain ⟨_, person, verified⟩ := bind_ok_iff.mp (mapError_ok human)
  rw [require_ok_iff] at person verified listed
  obtain ⟨admin, member, same⟩ := List.mem_map.mp listed
  obtain ⟨member, named⟩ := List.mem_filter.mp member
  exact ⟨person.1, person.2, verified, admin, member, by simpa using named, same⟩

theorem requireRestatementApprovers_ok {minimum : Int} {u : Unit}
    (passed : requireRestatementApprovers restatement actor.toLayerActor minimum = .ok u) :
    ∃ names : List String, names.Nodup ∧ minimum ≤ names.length ∧
      ∀ name ∈ names, name ∈ approvers restatement ∧ name ≠ lowered (strip (actor.identity.getD "")) := by
  rcases require_ok_iff.mp passed with none | enough
  · exact ⟨[], List.nodup_nil, by simpa using none, by simp⟩
  · refine ⟨independentApprovers restatement actor.toLayerActor, List.nodup_dedup _, enough, ?_⟩
    intro name member
    simpa [independentApprovers] using member

theorem resolveActor_answers {env : AuthEnv PrivateKey Key} {authorization : Option String}
    (resolved : resolveActor env service.trust service.directory authorization = .ok actor)
    (human : actor.kind = "human") (named : actor.identity.getD "" ≠ "") :
    ∀ directory, service.directory = some directory →
      Answers directory (strip (actor.identity.getD "")) statusActive := by
  intro directory configured
  obtain ⟨token, _, rest⟩ := bind_ok_iff.mp resolved
  obtain ⟨checked, _, rest⟩ := bind_ok_iff.mp rest
  rw [configured] at rest
  rcases applyDirectory_ok (mapError_ok rest) with ⟨exempt, same⟩ | ⟨_, _, answered, same⟩
  · subst same
    exact absurd human (exempt.resolve_right named)
  · subst same
    exact answered

theorem getD_ne_of_named {identity : Option String} (held : named identity = true) : identity.getD "" ≠ "" := by
  intro empty
  rw [named, empty] at held
  exact absurd held (by decide)

end Gates

section Serving

variable {ledger : Env} {service : Service Key} {layer next : Layer} {exchange : Exchange PrivateKey Key}

theorem restatedBlock_get {restatement : Dict} {findingRef : Option String} {key : String}
    (other : key ≠ "finding_ref") : (restatedBlock restatement findingRef).get key = restatement.get key := by
  unfold restatedBlock
  split
  · rw [Dict.get_set, if_neg other]
  · rfl

theorem serve_field {field : String} (signed : field ∈ signedMetadataFields)
    (served : serve ledger service layer exchange = .ok next) :
    next.metadata.get field = layer.metadata.get field ∨ Restates service field exchange := by
  obtain ⟨actor, resolved, rest⟩ := bind_ok_iff.mp served
  obtain ⟨call, routing, rest⟩ := bind_ok_iff.mp rest
  have accepted := mapError_ok rest
  rcases step_cases accepted with ⟨moment, layerId, block, rationale, made, recordedAt, target, event, same, effect⟩ |
    ⟨moment, layerId, updates, same, _⟩ | ⟨_, effect⟩
  · by_cases hit : field = target
    · right
      subst same hit
      cases request : exchange.request with
      | restate name restatement findingRef reason instant =>
        rw [request] at routing
        obtain ⟨_, authorised, rest⟩ := bind_ok_iff.mp routing
        cases rest
        obtain ⟨_, admin, approved⟩ := bind_ok_iff.mp authorised
        obtain ⟨human, named, verified, listed⟩ := requireAdmin_ok admin
        refine ⟨_, restatement, findingRef, _, instant, actor, request, ?_, resolved, human, verified, listed,
          requireRestatementApprovers_ok approved, resolveActor_answers resolved human (getD_ne_of_named named), ?_⟩
        · rw [← effect.blockTarget, restatedBlock_get (by decide)]
        · have ticket := effect.ticket
          rwa [ticketOf, restatedBlock_get (by decide), ← ticketOf] at ticket
      | _ =>
        rw [request] at routing
        cases routing
    · left
      rw [effect.metadata field signed, if_neg hit]
  · subst same
    cases request : exchange.request with
    | restate name restatement findingRef reason instant =>
      rw [request] at routing
      obtain ⟨_, _, rest⟩ := bind_ok_iff.mp routing
      cases rest
    | _ =>
      rw [request] at routing
      cases routing
  · exact .inl (effect.metadata field signed)

end Serving

def FieldExplained (service : Service Key) (field : String) (start : Layer)
    (exchanges : List (Exchange PrivateKey Key)) (layer : Layer) : Prop :=
  layer.metadata.get field = start.metadata.get field ∨ ∃ exchange ∈ exchanges, Restates service field exchange

/-- Over any run of requests to the service, whatever their tokens and bodies: a field inside the signature changes
    only when one of them is a restatement of it by a verified human who is an admin, still employed, with the
    approvals the deployment asks for, and with a ticket. -/
theorem service_changes_authorised {ledger : Env} {service : Service Key} {start : Layer}
    {exchanges : List (Exchange PrivateKey Key)} {field : String} (signed : field ∈ signedMetadataFields)
    (changed : (run (serve ledger service) start exchanges).metadata.get field ≠ start.metadata.get field) :
    ∃ exchange ∈ exchanges, Restates service field exchange := by
  have kept : FieldExplained service field start exchanges (run (serve ledger service) start exchanges) := by
    apply run_preserves_mem
    · exact .inl rfl
    · intro layer exchange next member held served
      rcases held with same | found
      · rcases serve_field signed served with unchanged | restated
        · exact .inl (unchanged.trans same)
        · exact .inr ⟨exchange, member, restated⟩
      · exact .inr found
  exact kept.resolve_left changed

section Approval

def approvedMove : Dict :=
  moveOne.set "authority" (.obj [("approved_by", .str "Bo, ana@example.com"), ("ticket", .str "SEC-1")])

def staffDirectory : ScriptDirectory where
  command := ["validate_employee"]
  run argv := if argv = ["validate_employee", "ana@example.com"] then
      .ended 0 "checking ...\nRESULT uid=ana@example.com status=active auth=kerberos\n"
    else .ended 3 ""

def adminService : Service String where
  config := ⟨"", some "https://idp.example/keys", none, none, "azp", "email", ["ANA@example.com "], 1⟩
  trust := [⟨.null, ⟨{ jwksUrl := .str "https://idp.example/keys" }, []⟩⟩]
  directory := some staffDirectory

def approvedExchange : Exchange String String where
  env := idpEnv
  moment := unsigned
  authorization := some "Bearer ana.jwt"
  request := .restate "acme" approvedMove none "the digest was wrong" (some sampleInstant)

theorem service_changes_authorised_approved :
    ∃ exchange ∈ [approvedExchange], Restates adminService "claim_hashes" exchange :=
  service_changes_authorised (by decide) (by decide +kernel :
    (run (serve referenceEnv adminService) oneClaim [approvedExchange]).metadata.get "claim_hashes" ≠
      oneClaim.metadata.get "claim_hashes")

end Approval

end LedgerProof
