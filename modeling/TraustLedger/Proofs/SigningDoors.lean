import TraustLedger.Proofs.SignedLayers
import TraustLedger.Proofs.BackendAgreement

namespace LedgerProof

open Hashing Python Runs Sha256 LedgerModel

variable {env : Env} {moment : Moment} {layerId : String} {layer stamped : Layer} {made : String → Bytes → Prop}

/-- The one configuration in which the endpoint can sign: it knows neither the aliases of the methods nor the
    key and the token of the environment. -/
def Keyed (config : ServiceConfig) : Prop :=
  config.signingMethod = "keypair" ∧ config.signingKeyPath.getD "" ≠ ""

def clientAttempt (env : Env) (moment : Moment) (stamped : Layer) : Layer × SignAttempt :=
  signIfConfigured env.hash env.signers (signingConfig moment.config moment.harness) stamped

def endpointAttempt (env : Env) (moment : Moment) (stamped : Layer) : Layer × SignAttempt :=
  signIfConfigured env.hash env.signers (credentialsFromConfig moment.config) stamped

def Unconfigured (config : SigningConfig) : Prop :=
  if config.method = "" ∨ config.method = "keypair" then config.keyPath.getD "" = ""
  else config.oidcToken.getD "" = ""

theorem status_unconfigured_iff {H : HashFunction} {signers : Signers} {config : SigningConfig} :
    (signIfConfigured H signers config layer).2.status = .unconfigured ↔ Unconfigured config := by
  have method : (if config.method = "" then "keypair" else config.method) = "keypair" ↔
      config.method = "" ∨ config.method = "keypair" := by
    by_cases blank : config.method = "" <;> simp [blank]
  unfold signIfConfigured Unconfigured
  simp only [beq_iff_eq, ne_eq, method]
  by_cases keypair : config.method = "" ∨ config.method = "keypair"
  · rw [if_pos keypair]
    by_cases missing : config.keyPath.getD "" = ""
    · simp [keypair, missing]
    · rw [if_neg (by simp [missing]), if_neg (by simp [keypair])]
      refine iff_of_false ?_ missing
      split
      · simp
      · split
        · simp
        · split
          · simp
          · split <;> simp
  · rw [if_neg keypair]
    by_cases missing : config.oidcToken.getD "" = ""
    · simp [keypair, missing]
    · rw [if_neg (by simp [keypair]), if_neg (by simp [missing])]
      refine iff_of_false ?_ missing
      split
      · simp
      · split
        · simp
        · split
          · simp
          · split <;> simp

theorem signIfConfigured_unsigned {H : HashFunction} {signers : Signers} {config : SigningConfig}
    (unsigned : (signIfConfigured H signers config layer).2.status ≠ .signed) :
    (signIfConfigured H signers config layer).1 = layer := by
  have honest : HonestSigners (fun _ _ => True) signers := fun _ _ _ _ _ _ _ _ => trivial
  rcases signIfConfigured_cases layer honest with ⟨signed, -⟩ | ⟨-, same⟩
  · exact absurd signed unsigned
  · exact same

theorem endpointAttempt_keyed (keyed : Keyed moment.config) :
    endpointAttempt env moment stamped = clientAttempt env moment stamped := by
  rcases keyed with ⟨method, key⟩
  simp [endpointAttempt, clientAttempt, signIfConfigured, signingConfig, credentialsFromConfig, getBackendFromConfig,
    methodAlias, method, key]

theorem endpointAttempt_failed (keyed : Keyed moment.config)
    (unsigned : (clientAttempt env moment stamped).2.status ≠ .signed) :
    (endpointAttempt env moment stamped).2.status = .failed := by
  have configured : (endpointAttempt env moment stamped).2.status ≠ .unconfigured := by
    rw [endpointAttempt, Ne, status_unconfigured_iff]
    rcases keyed with ⟨method, key⟩
    simp [Unconfigured, credentialsFromConfig, method, key]
  rw [← endpointAttempt_keyed keyed] at unsigned
  cases status : (endpointAttempt env moment stamped).2.status with
  | unconfigured => exact absurd status configured
  | signed => exact absurd status unsigned
  | failed => rfl

theorem endpointAttempt_unkeyed (unkeyed : ¬ Keyed moment.config) :
    (endpointAttempt env moment stamped).1 = stamped ∧ (endpointAttempt env moment stamped).2.status ≠ .signed ∧
      ((endpointAttempt env moment stamped).2.status = .failed ↔
        moment.config.signingMethod = "" ∧ moment.config.signingKeyPath.getD "" ≠ "") := by
  by_cases blank : moment.config.signingMethod = "" ∧ moment.config.signingKeyPath.getD "" ≠ ""
  · rcases blank with ⟨method, key⟩
    unfold endpointAttempt signIfConfigured
    simp only [credentialsFromConfig, method, key, if_true, beq_iff_eq, ne_eq, not_true_eq_false, false_and, and_false,
      if_false, getBackendFromConfig, String.reduceEq, not_false_eq_true, and_self, iff_true]
    split <;> simp
  · have missing : Unconfigured (credentialsFromConfig moment.config) := by
      unfold Unconfigured credentialsFromConfig
      split
      · next method =>
        by_contra key
        rcases method with method | method
        · exact blank ⟨method, key⟩
        · exact unkeyed ⟨method, key⟩
      · rfl
    have status : (endpointAttempt env moment stamped).2.status = .unconfigured := status_unconfigured_iff.mpr missing
    have unsigned : (endpointAttempt env moment stamped).2.status ≠ .signed := by simp [status]
    exact ⟨signIfConfigured_unsigned unsigned, unsigned, by simp [status, blank]⟩

theorem sign_ok_iff {next : Layer} : (∃ receipt, sign env moment layerId layer = .ok (next, receipt)) ↔
    ∃ stamped dropped, stampMerkleMetadata env.hash layer = .ok (stamped, dropped) ∧
      (moment.config.signingRequired = false ∨ (clientAttempt env moment stamped).2.status = .signed) ∧
      next = (clientAttempt env moment stamped).1 ∧ Admits env layer next := by
  simp only [sign, asLedgerError, rethrow_ok_iff, mutate_ok_iff, bind_ok_iff, finalizeLayer]
  constructor
  · intro given
    rcases given with ⟨receipt, ⟨⟨_, root⟩, ⟨⟨stamped, dropped⟩, stamp, _, enough, finalizing⟩, result⟩, admitted⟩
    cases finalizing
    cases result
    exact ⟨stamped, dropped, stamp, require_ok_iff.mp enough, rfl, admitted⟩
  · intro given
    rcases given with ⟨stamped, dropped, stamp, enough, rfl, admitted⟩
    exact ⟨_, ⟨_, ⟨(stamped, dropped), stamp, (), require_ok_iff.mpr enough, rfl⟩, rfl⟩, admitted⟩

theorem signLayerEndpoint_ok_iff {next : Layer} {attempt : SignAttempt} :
    signLayerEndpoint env moment layerId false layer = .ok (next, attempt) ↔
    env.contracts.validateLayer layer = true ∧
      ∃ stamped dropped, stampMerkleMetadata env.hash layer = .ok (stamped, dropped) ∧
        (next, attempt) = endpointAttempt env moment stamped ∧ attempt.status ≠ .failed ∧ Admits env layer next := by
  simp only [signLayerEndpoint, rethrow_ok_iff, mutate_ok_iff, bind_ok_iff, signLayer, require_ok_iff, exists_const,
    Bool.false_eq_true, if_false]
  constructor
  · intro given
    rcases given with ⟨⟨valid, ⟨stamped, dropped⟩, stamp, enough, result⟩, admitted⟩
    cases result
    exact ⟨valid, stamped, dropped, stamp, rfl, enough, admitted⟩
  · intro given
    rcases given with ⟨valid, stamped, dropped, stamp, same, enough, admitted⟩
    rcases Prod.mk.inj same with ⟨rfl, rfl⟩
    exact ⟨⟨valid, (stamped, dropped), stamp, enough, rfl⟩, admitted⟩

/-- One stored layer at both doors: they fail together, or they leave the same metadata and each reports a
    signature exactly where the layer it stored carries one over its own payload. -/
def DoorsAgree (made : String → Bytes → Prop) (env : Env) (moment : Moment) (layerId : String) (layer : Layer) : Prop :=
  match sign env moment layerId layer, signLayerEndpoint env moment layerId false layer with
  | .ok (client, _), .ok (endpoint, attempt) => client.metadata = endpoint.metadata ∧
      (clientSignStatus = .signed ↔ SignedOver env.hash made client) ∧
      (attempt.status = .signed ↔ SignedOver env.hash made endpoint)
  | .error _, .error _ => True
  | _, _ => False

def ClientRefuses (env : Env) (moment : Moment) (layer stamped : Layer) : Prop :=
  (moment.config.signingRequired = true ∧ (clientAttempt env moment stamped).2.status ≠ .signed) ∨
    ¬ Admits env layer (clientAttempt env moment stamped).1

def EndpointRefuses (env : Env) (moment : Moment) (layer stamped : Layer) : Prop :=
  env.contracts.validateLayer layer = false ∨
    (Keyed moment.config ∧ (clientAttempt env moment stamped).2.status ≠ .signed) ∨
    (moment.config.signingMethod = "" ∧ moment.config.signingKeyPath.getD "" ≠ "") ∨ ¬ Admits env layer stamped

/-- The layer cannot be stamped, or the endpoint has the key of the client and it signs, or both doors refuse. -/
def DoorsMeet (env : Env) (moment : Moment) (layer : Layer) : Prop :=
  ∀ stamped dropped, stampMerkleMetadata env.hash layer = .ok (stamped, dropped) →
    (Keyed moment.config ∧ (clientAttempt env moment stamped).2.status = .signed ∧
      (Admits env layer (clientAttempt env moment stamped).1 → env.contracts.validateLayer layer = true)) ∨
    (ClientRefuses env moment layer stamped ∧ EndpointRefuses env moment layer stamped)

section Stamping

variable {dropped : Bool} (stamp : stampMerkleMetadata env.hash layer = .ok (stamped, dropped))

include stamp

theorem client_stores {next : Layer} {receipt : Receipt} (stored : sign env moment layerId layer = .ok (next, receipt)) :
    next = (clientAttempt env moment stamped).1 ∧ ¬ ClientRefuses env moment layer stamped := by
  rcases sign_ok_iff.mp ⟨receipt, stored⟩ with ⟨again, _, restamp, enough, same, admitted⟩
  rw [stamp] at restamp
  cases restamp
  refine ⟨same, ?_⟩
  intro given
  rcases given with ⟨required, unsigned⟩ | refused
  · rw [required] at enough
    exact unsigned (enough.resolve_left (by simp))
  · exact refused (same ▸ admitted)

theorem client_fails {failure : Failure} (failed : sign env moment layerId layer = .error failure) :
    ClientRefuses env moment layer stamped := by
  by_contra accepts
  simp only [ClientRefuses, not_or, not_and, not_not] at accepts
  have enough : moment.config.signingRequired = false ∨ (clientAttempt env moment stamped).2.status = .signed := by
    cases required : moment.config.signingRequired with
    | false => exact .inl rfl
    | true => exact .inr (accepts.1 required)
  obtain ⟨receipt, stored⟩ := (@sign_ok_iff env moment layerId layer _).mpr
    ⟨stamped, dropped, stamp, enough, rfl, accepts.2⟩
  rw [stored] at failed
  cases failed

theorem endpoint_stores {next : Layer} {attempt : SignAttempt}
    (stored : signLayerEndpoint env moment layerId false layer = .ok (next, attempt)) :
    env.contracts.validateLayer layer = true ∧ next = (endpointAttempt env moment stamped).1 ∧
      attempt = (endpointAttempt env moment stamped).2 ∧ attempt.status ≠ .failed ∧ Admits env layer next := by
  rcases signLayerEndpoint_ok_iff.mp stored with ⟨valid, again, _, restamp, same, enough, admitted⟩
  rw [stamp] at restamp
  cases restamp
  exact ⟨valid, congrArg Prod.fst same, congrArg Prod.snd same, enough, admitted⟩

theorem endpoint_fails {failure : Failure} (failed : signLayerEndpoint env moment layerId false layer = .error failure)
    (valid : env.contracts.validateLayer layer = true)
    (enough : (endpointAttempt env moment stamped).2.status ≠ .failed) :
    ¬ Admits env layer (endpointAttempt env moment stamped).1 := by
  intro admitted
  have stored := (@signLayerEndpoint_ok_iff env moment layerId layer (endpointAttempt env moment stamped).1
    (endpointAttempt env moment stamped).2).mpr ⟨valid, stamped, dropped, stamp, rfl, enough, admitted⟩
  rw [stored] at failed
  cases failed

theorem endpoint_stores_unsigned {next : Layer} {attempt : SignAttempt}
    (apart : ¬ (Keyed moment.config ∧ (clientAttempt env moment stamped).2.status = .signed))
    (stored : signLayerEndpoint env moment layerId false layer = .ok (next, attempt)) :
    attempt.status ≠ .signed ∧ ¬ EndpointRefuses env moment layer stamped := by
  rcases endpoint_stores stamp stored with ⟨valid, rfl, rfl, enough, admitted⟩
  have unkeyed : ¬ Keyed moment.config := by
    intro keyed
    exact enough (endpointAttempt_failed keyed fun signed => apart ⟨keyed, signed⟩)
  rcases @endpointAttempt_unkeyed env moment stamped unkeyed with ⟨kept, unsigned, blank⟩
  refine ⟨unsigned, ?_⟩
  intro given
  rcases given with invalid | ⟨keyed, -⟩ | unnamed | refused
  · rw [valid] at invalid
    cases invalid
  · exact unkeyed keyed
  · exact enough (blank.mpr unnamed)
  · exact refused (kept ▸ admitted)

theorem endpoint_refuses {failure : Failure}
    (failed : signLayerEndpoint env moment layerId false layer = .error failure)
    (apart : ¬ (Keyed moment.config ∧ (clientAttempt env moment stamped).2.status = .signed)) :
    EndpointRefuses env moment layer stamped := by
  by_cases keyed : Keyed moment.config
  · exact .inr (.inl ⟨keyed, fun signed => apart ⟨keyed, signed⟩⟩)
  · rcases @endpointAttempt_unkeyed env moment stamped keyed with ⟨kept, unsigned, blank⟩
    by_contra accepts
    simp only [EndpointRefuses, not_or, Bool.not_eq_false, not_not] at accepts
    rcases accepts with ⟨valid, -, unnamed, admitted⟩
    exact endpoint_fails stamp failed valid (fun down => unnamed (blank.mp down)) (by rwa [kept])

end Stamping

theorem SignedOver.congr {H : HashFunction} {left right : Layer} (same : left.metadata = right.metadata)
    (signed : SignedOver H made left) : SignedOver H made right := by
  unfold SignedOver payloadOf at signed ⊢
  rwa [← same]

theorem clientAttempt_signedOver (honest : HonestSigners made env.signers)
    (signed : (clientAttempt env moment stamped).2.status = .signed) :
    SignedOver env.hash made (clientAttempt env moment stamped).1 := by
  rcases signIfConfigured_cases stamped honest with ⟨-, attested⟩ | ⟨unsigned, -⟩
  · exact attested
  · exact absurd signed unsigned

theorem doorsAgree_unstampable {failure : Failure} (refused : stampMerkleMetadata env.hash layer = .error failure) :
    DoorsAgree made env moment layerId layer := by
  unfold DoorsAgree
  cases client : sign env moment layerId layer with
  | ok stored =>
    rcases sign_ok_iff.mp ⟨_, client⟩ with ⟨_, _, accepted, -⟩
    rw [refused] at accepted
    cases accepted
  | error _ =>
    cases endpoint : signLayerEndpoint env moment layerId false layer with
    | ok stored =>
      rcases signLayerEndpoint_ok_iff.mp endpoint with ⟨-, _, _, accepted, -⟩
      rw [refused] at accepted
      cases accepted
    | error _ => trivial

section Doors

variable {dropped : Bool} (stamp : stampMerkleMetadata env.hash layer = .ok (stamped, dropped))

include stamp

theorem doorsMeet_iff : DoorsMeet env moment layer ↔
    (Keyed moment.config ∧ (clientAttempt env moment stamped).2.status = .signed ∧
      (Admits env layer (clientAttempt env moment stamped).1 → env.contracts.validateLayer layer = true)) ∨
    (ClientRefuses env moment layer stamped ∧ EndpointRefuses env moment layer stamped) := by
  refine ⟨fun holds => holds stamped dropped stamp, fun holds other _ accepted => ?_⟩
  rw [stamp] at accepted
  cases accepted
  exact holds

theorem doorsAgree_keyed (honest : HonestSigners made env.signers) (keyed : Keyed moment.config)
    (signed : (clientAttempt env moment stamped).2.status = .signed) :
    DoorsAgree made env moment layerId layer ↔
      (Admits env layer (clientAttempt env moment stamped).1 → env.contracts.validateLayer layer = true) := by
  have same := @endpointAttempt_keyed env moment stamped keyed
  have refusal : ClientRefuses env moment layer stamped ↔
      ¬ Admits env layer (clientAttempt env moment stamped).1 := by
    simp [ClientRefuses, signed]
  unfold DoorsAgree
  cases client : sign env moment layerId layer with
  | ok stored =>
    rcases stored with ⟨next, receipt⟩
    rcases client_stores stamp client with ⟨rfl, accepts⟩
    have admitted := not_not.mp (mt refusal.mpr accepts)
    cases endpoint : signLayerEndpoint env moment layerId false layer with
    | ok stored =>
      rcases stored with ⟨held, attempt⟩
      rcases endpoint_stores stamp endpoint with ⟨valid, rfl, rfl, -⟩
      have attested := @clientAttempt_signedOver env moment stamped made honest signed
      refine iff_of_true ?_ fun _ => valid
      rw [same]
      exact ⟨rfl, iff_of_true rfl attested, iff_of_true signed attested⟩
    | error failure =>
      refine iff_of_false not_false fun valid => ?_
      exact endpoint_fails stamp endpoint (valid admitted) (by simp [same, signed]) (same ▸ admitted)
  | error failure =>
    have refused := refusal.mp (client_fails stamp client)
    cases endpoint : signLayerEndpoint env moment layerId false layer with
    | ok stored =>
      rcases stored with ⟨held, attempt⟩
      rcases endpoint_stores stamp endpoint with ⟨-, rfl, rfl, -, admitted⟩
      exact absurd (same ▸ admitted) refused
    | error _ => exact iff_of_true trivial fun admitted => absurd admitted refused

theorem doorsAgree_apart (apart : ¬ (Keyed moment.config ∧ (clientAttempt env moment stamped).2.status = .signed)) :
    DoorsAgree made env moment layerId layer ↔
      ClientRefuses env moment layer stamped ∧ EndpointRefuses env moment layer stamped := by
  unfold DoorsAgree
  cases client : sign env moment layerId layer with
  | ok stored =>
    rcases stored with ⟨next, receipt⟩
    rcases client_stores stamp client with ⟨-, accepts⟩
    refine iff_of_false ?_ fun both => accepts both.1
    cases endpoint : signLayerEndpoint env moment layerId false layer with
    | ok stored =>
      rcases stored with ⟨held, attempt⟩
      -- equal metadata would carry the client's signature over to an attempt that reports none
      intro given
      rcases given with ⟨metadata, reported, honestly⟩
      rcases endpoint_stores_unsigned stamp apart endpoint with ⟨unsigned, -⟩
      exact unsigned (honestly.mpr ((reported.mp rfl).congr metadata))
    | error _ => exact not_false
  | error failure =>
    have refused := client_fails stamp client
    cases endpoint : signLayerEndpoint env moment layerId false layer with
    | ok stored =>
      rcases stored with ⟨held, attempt⟩
      exact iff_of_false not_false fun both => (endpoint_stores_unsigned stamp apart endpoint).2 both.2
    | error _ => exact iff_of_true trivial ⟨refused, endpoint_refuses stamp endpoint apart⟩

end Doors

/-- The doors agree exactly where `DoorsMeet` says: an alias of the method, a key or a token that only the
    environment has, or a signer that fails while signing is not required, sets them apart. -/
theorem signing_doors_agree_iff (env : Env) (made : String → Bytes → Prop) (honest : HonestSigners made env.signers)
    (moment : Moment) (layerId : String) (layer : Layer) :
    DoorsAgree made env moment layerId layer ↔ DoorsMeet env moment layer := by
  cases stamp : stampMerkleMetadata env.hash layer with
  | error failure =>
    refine iff_of_true (doorsAgree_unstampable stamp) ?_
    intro stamped dropped accepted
    rw [stamp] at accepted
    cases accepted
  | ok result =>
    rcases result with ⟨stamped, dropped⟩
    rw [doorsMeet_iff stamp]
    by_cases together : Keyed moment.config ∧ (clientAttempt env moment stamped).2.status = .signed
    · rcases together with ⟨keyed, signed⟩
      have refusal : ClientRefuses env moment layer stamped →
          ¬ Admits env layer (clientAttempt env moment stamped).1 := by
        simp [ClientRefuses, signed]
      rw [doorsAgree_keyed stamp honest keyed signed]
      constructor
      · intro valid
        exact .inl ⟨keyed, signed, valid⟩
      · intro given admitted
        rcases given with ⟨-, -, valid⟩ | ⟨refuses, -⟩
        · exact valid admitted
        · exact absurd admitted (refusal refuses)
    · rw [doorsAgree_apart stamp together, or_iff_right fun both => together ⟨both.1, both.2.1⟩]

def keypairSigning : Moment := { unsigned with config := ⟨false, some "ledger.key", "keypair"⟩ }

def spellingEnv : Env := referenceEnv.withTools spellingTools

theorem signing_doors_agree_iff_keypair : HonestSigners spells spellingEnv.signers ∧
    (sign spellingEnv keypairSigning "acme" oneClaim).isOk = true ∧
    DoorsAgree spells spellingEnv keypairSigning "acme" oneClaim := by
  have honest := (spelling_honest referenceEnv).signers
  refine ⟨honest, by decide +kernel, (signing_doors_agree_iff spellingEnv spells honest _ _ _).mpr ?_⟩
  intro stamped dropped accepted
  have signs : okAnd (stampMerkleMetadata sha256 oneClaim) (fun result =>
      decide ((clientAttempt spellingEnv keypairSigning result.1).2.status = .signed)) = true := by
    decide +kernel
  rcases okAnd_iff.mp signs with ⟨result, stamp, signed⟩
  have same : result = (stamped, dropped) := Except.ok.inj (stamp.symm.trans accepted)
  subst same
  exact .inl ⟨⟨rfl, by decide⟩, of_decide_eq_true signed, fun _ => by decide +kernel⟩

/-- Under the name the service's own default has for it, the method is the key pair to the client and unknown to
    the endpoint: the same call signs the layer at one door and leaves it unsigned at the other. -/
theorem cosign_doors_disagree :
    okAnd (sign spellingEnv requiredSigning "acme" oneClaim) (fun result =>
      decide (result.1.metadata.get "merkle_root_signature" ≠ .null)) = true ∧
    okAnd (signLayerEndpoint spellingEnv requiredSigning "acme" false oneClaim) (fun result =>
      decide (result.1.metadata.get "merkle_root_signature" = .null ∧ result.2.status = .unconfigured)) = true ∧
    ¬ DoorsAgree spells spellingEnv requiredSigning "acme" oneClaim := by
  have doors : okAnd (sign spellingEnv requiredSigning "acme" oneClaim) (fun result =>
      decide (result.1.metadata.get "merkle_root_signature" ≠ .null)) = true ∧
    okAnd (signLayerEndpoint spellingEnv requiredSigning "acme" false oneClaim) (fun result =>
      decide (result.1.metadata.get "merkle_root_signature" = .null ∧ result.2.status = .unconfigured)) = true := by
    decide +kernel
  refine ⟨doors.1, doors.2, ?_⟩
  rcases okAnd_iff.mp doors.1 with ⟨⟨client, receipt⟩, signing, carried⟩
  rcases okAnd_iff.mp doors.2 with ⟨⟨endpoint, attempt⟩, stamping, bare⟩
  unfold DoorsAgree
  rw [signing, stamping]
  intro given
  rcases given with ⟨metadata, -⟩
  rw [decide_eq_true_eq] at carried bare
  rw [metadata] at carried
  exact carried bare.1

end LedgerProof
