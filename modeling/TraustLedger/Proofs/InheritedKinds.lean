import TraustLedger.Proofs.ConfiguredProviders
import TraustLedger.Proofs.CanonicalTexts

namespace LedgerProof

open Python Runs LedgerModel GuardedCalls

variable {PrivateKey Key : Type}

structure RemembersMachine (name : String) (config : Dict) : Prop where
  kind : config.get "local_identity_kind" = .str "machine"
  spelling : ∃ spelled, config.get "local_identity" = .str spelled ∧ strip spelled = spelled ∧
    lowered spelled = lowered name

def AsksFor (name : String) (asked : Option String) : Prop :=
  ∀ identity, asked = some identity → identity = "" ∨ lowered (strip identity) = lowered name

/-- The process does not take the kind back: no `--human`, and no other identity. -/
def StaysMachine (name : String) (process : Process PrivateKey Key) : Prop :=
  ∀ asked machine human, process.command = .localToken asked machine human → human = false ∧ AsksFor name asked

section Remembering

variable {name : String} {config : Dict} {asked : Option String} {identity : String} {machine : Bool}

theorem strip_strip (text : String) : strip (strip text) = strip text := by
  simp [strip]

theorem rememberedIdentity_eq {spelled : String} (held : config.get "local_identity" = .str spelled) :
    rememberedIdentity config = spelled := by
  unfold rememberedIdentity orElse
  rw [held]
  by_cases empty : spelled = "" <;> simp [Json.truthy, empty, pyStr]

theorem asked_same (remembers : RemembersMachine name config) (asks : AsksFor name asked)
    (chosen : textOr asked (config.get "local_identity") = .str identity) :
    lowered (strip identity) = lowered name := by
  obtain ⟨spelled, held, trimmed, same⟩ := remembers.spelling
  unfold textOr at chosen
  split at chosen
  · next given =>
    cases asked with
    | none => exact absurd rfl given
    | some text =>
      cases chosen
      exact (asks text rfl).resolve_left given
  · rw [held] at chosen
    cases chosen
    rw [trimmed, same]

theorem localMachine_inherited (remembers : RemembersMachine name config) (asks : AsksFor name asked)
    (chosen : textOr asked (config.get "local_identity") = .str identity) :
    localMachine config asked identity machine false = true := by
  obtain ⟨spelled, held, trimmed, same⟩ := remembers.spelling
  have reused : lowered (strip identity) = lowered (rememberedIdentity config) := by
    rw [rememberedIdentity_eq held, same]
    exact asked_same remembers asks chosen
  simp [localMachine, reused, remembers.kind]

theorem rememberedConfig_remembers {identity : String} (same : lowered (strip identity) = lowered name) :
    RemembersMachine name (rememberedConfig config (strip identity) true) := by
  refine ⟨by simp [rememberedConfig], strip identity, by simp [rememberedConfig], strip_strip identity, same⟩

theorem keeping_machine {process : Process PrivateKey Key} (stays : StaysMachine name process) :
    Keeping (RemembersMachine name) (fun _ => True) process where
  activates config host held := by
    obtain ⟨spelled, named, rest⟩ := held.spelling
    exact ⟨by simpa using held.kind, spelled, by simpa using named, rest⟩
  configures server issuer clientId _ config held := by
    obtain ⟨spelled, named, rest⟩ := held.spelling
    have kept : ∀ key, key ≠ "server_url" → key ≠ "issuer" → key ≠ "client_id" →
        (setWhenNamed (setWhenNamed (setWhenNamed config "server_url" server) "issuer" issuer) "client_id"
          clientId).get key = config.get key := by
      intro key notServer notIssuer notClient
      cases server <;> cases issuer <;> cases clientId <;>
        simp [setWhenNamed, notServer, notIssuer, notClient]
    refine ⟨?_, spelled, ?_, rest⟩
    · rw [kept _ (by decide) (by decide) (by decide)]
      exact held.kind
    · rw [kept _ (by decide) (by decide) (by decide)]
      exact named
  remembers asked machine human ran config identity held chosen _ := by
    obtain ⟨person, asks⟩ := stays asked machine human ran
    subst person
    rw [localMachine_inherited held asks chosen]
    exact rememberedConfig_remembers (asked_same held asks chosen)
  imports _ := trivial
  logsIn _ _ _ _ _ _ _ _ _ := trivial
  serves _ _ _ _ _ _ _ := trivial
  renews _ _ _ _ _ _ := trivial
  mints _ _ := trivial

end Remembering

section Minting

variable {env : AuthEnv PrivateKey Key} {home : Home PrivateKey Key}

theorem mintLocalToken_ok {identity token : String} {key : PrivateKey} {machine : Bool}
    (minted : mintLocalToken env identity key machine = .ok token) :
    strip identity ≠ "" ∧ token = env.jwt.encode (localPayload env.seconds identity machine) key := by
  obtain ⟨_, named, rest⟩ := bind_ok_iff.mp minted
  cases rest
  exact ⟨require_ok_iff.mp named, rfl⟩

theorem asText_ok {value : Json} {text : String} (read : asText value = .ok text) : value = .str text := by
  cases value with
  | str other =>
    cases read
    rfl
  | _ => cases read

theorem saveCredentials_named {host : String} {data : Dict} (nonempty : host ≠ "") :
    (saveCredentials env data (.str host)).after home =
      { home with credentials := home.credentials.set host (.obj data) } := by
  have chosen : ∀ other, orElse (.str host) other = .str host := by
    intro other
    simp [orElse, Json.truthy, nonempty]
  simp only [saveCredentials, activeHost, Call.after, Call.bind_apply, loadConfig, Call.read, Call.pure_apply, chosen,
    Call.ofExcept, require, if_pos nonempty, Call.write]

theorem cmdAuthLocal_ok {asked : Option String} {machine human : Bool}
    (created : (cmdAuthLocal env asked machine human).result home = .ok 0) :
    ∃ identity kind key token expiresAt,
      textOr asked (home.config.get "local_identity") = .str identity ∧
      localMachine home.config asked identity machine human = kind ∧
      mintLocalToken env (localName identity kind) key kind = .ok token ∧
      ((cmdAuthLocal env asked machine human).after home).config =
        rememberedConfig home.config (localName identity kind) kind ∧
      ((cmdAuthLocal env asked machine human).after home).credentials.get "local" =
        .obj (localCredential token expiresAt) := by
  obtain ⟨config, read, rest, loaded⟩ := Call.bind_ok created
  cases read
  simp only [Call.ite_result, Call.ite_after] at rest loaded
  by_cases unset : (textOr asked (home.config.get "local_identity")).truthy = false
  · rw [if_pos unset] at rest
    cases rest
  by_cases both : machine = true ∧ human = true
  · rw [if_neg unset, if_pos both] at rest
    cases rest
  rw [if_neg unset, if_neg both] at rest loaded
  obtain ⟨identity, chosen, rest, chose⟩ := Call.bind_ok rest
  generalize same : localMachine home.config asked identity machine human = kind at rest chose
  obtain ⟨key, _, rest, keyed⟩ := Call.bind_ok rest
  obtain ⟨token, minted, rest, coded⟩ := Call.bind_ok rest
  obtain ⟨_, _, rest, remembered⟩ := Call.bind_ok rest
  obtain ⟨expiresAt, _, rest, dated⟩ := Call.bind_ok rest
  obtain ⟨_, _, rest, stored⟩ := Call.bind_ok rest
  have files : (cmdAuthLocal env asked machine human).after home =
      (saveCredentials env (localCredential token expiresAt) (.str "local")).after
        { (ensureLocalKeypair env).after home with
          config := rememberedConfig home.config (localName identity kind) kind } :=
    loaded.trans (chose.trans (keyed.trans (coded.trans (remembered.trans (dated.trans stored)))))
  rw [saveCredentials_named (by decide)] at files
  exact ⟨identity, kind, key, token, expiresAt, asText_ok chosen, same, minted, by rw [files], by simp [files]⟩

theorem autoMintLocalToken_ok {token : String} (minted : (autoMintLocalToken env).result home = .ok (some token)) :
    ∃ key, mintLocalToken env (strip (env.get "LEDGER_LOCAL_IDENTITY")) key
      (autoMintMachine env home.config (strip (env.get "LEDGER_LOCAL_IDENTITY"))) = .ok token := by
  simp only [autoMintLocalToken, Call.ite_result] at minted
  split at minted
  · cases minted
  · obtain ⟨config, read, rest, _⟩ := Call.bind_ok minted
    cases read
    obtain ⟨key, _, rest, _⟩ := Call.bind_ok rest
    obtain ⟨coded, encoded, rest, _⟩ := Call.bind_ok rest
    cases rest
    exact ⟨key, encoded⟩

theorem autoMintMachine_inherited {name identity : String} (remembers : RemembersMachine name home.config)
    (same : lowered identity = lowered name) : autoMintMachine env home.config identity = true := by
  obtain ⟨spelled, held, _, spelling⟩ := remembers.spelling
  simp [autoMintMachine, remembers.kind, rememberedIdentity_eq held, spelling, same]

end Minting

/-- PyJWT shows without a check what it accepts, and what this process encoded for a local identity. -/
structure DecodesFor (writer reader : AuthEnv PrivateKey Key) : Prop where
  shown : ∀ key issuer audience token claims, reader.jwt.decode key issuer audience token = .ok claims →
    reader.jwt.peek token = some claims
  shownAgain : ∀ identity machine key,
    reader.jwt.peek (writer.jwt.encode (localPayload writer.seconds identity machine) key) =
      some (localPayload writer.seconds identity machine)

/-- The claims a verifier reads names from are not among those a machine token has for another use; the defaults,
    `azp` and `email`, are not. -/
def ReadsNames (config : VerifierConfig Key) : Prop :=
  config.identityClaim ∉ ["sub", "iss", "iat", "exp", "azp"] ∧ config.machineClaim ∉ ["iss", "iat", "exp"]

def MachineToken (writer : AuthEnv PrivateKey Key) (identity token : String) : Prop :=
  ∀ (reader : AuthEnv PrivateKey Key) (verifier : TokenVerifier Key) (actor : TokenActor), DecodesFor writer reader →
    ReadsNames verifier.config → verifier.verify reader token = .ok actor →
    actor.kind = "machine" ∧ actor.identity = some identity

section Inheritance

variable {env : AuthEnv PrivateKey Key} {name : String} {home : Home PrivateKey Key}

theorem claimedIdentity_machine {identity machineClaim identityClaim : String} (seconds : Int)
    (nonempty : identity ≠ "")
    (person : identityClaim ∉ ["sub", "iss", "iat", "exp", "azp"]) (automation : machineClaim ∉ ["iss", "iat", "exp"]) :
    claimedIdentity (localPayload seconds identity true) machineClaim identityClaim = .ok ("machine", identity) := by
  simp only [List.mem_cons, List.not_mem_nil, or_false, not_or] at person automation
  have none : (localPayload seconds identity true).get identityClaim = .null := by
    simp [localPayload, Dict.ofList, Dict.update, person]
  have sub : (localPayload seconds identity true).get "sub" = .str identity := by
    simp [localPayload, Dict.ofList, Dict.update]
  have truthy : (Json.str identity).truthy = true := by simp [Json.truthy, nonempty]
  unfold claimedIdentity
  rw [none, sub]
  -- the name stands under `sub` too, which is read where the machine claim is neither it nor `azp`
  by_cases named : machineClaim = "azp" ∨ machineClaim = "sub"
  · have machine : (localPayload seconds identity true).get machineClaim = .str identity := by
      rcases named with rfl | rfl <;> simp [localPayload, Dict.ofList, Dict.update]
    rw [machine, if_pos ⟨truthy, rfl⟩]
    rfl
  · rw [not_or] at named
    have machine : (localPayload seconds identity true).get machineClaim = .null := by
      simp [localPayload, Dict.ofList, Dict.update, automation, named]
    rw [machine, if_neg (by simp [Json.truthy]), if_neg (by simp [Json.truthy]), require, if_pos truthy]
    rfl

theorem machineToken_of_mint {identity token : String} {key : PrivateKey}
    (minted : mintLocalToken env identity key true = .ok token) : MachineToken env identity token := by
  obtain ⟨named, coded⟩ := mintLocalToken_ok minted
  intro reader verifier actor readable reads accepted
  obtain ⟨signing, claims, _, decoded, mapped⟩ := verify_ok accepted
  have shown := readable.shown signing _ _ token claims decoded
  rw [coded, readable.shownAgain identity true key] at shown
  obtain ⟨kind, claimed, read, sameKind, sameName, _⟩ := claimsToActor_ok mapped
  have nonempty : identity ≠ "" := by
    intro empty
    subst empty
    exact named rfl
  rw [← Option.some.inj shown, claimedIdentity_machine env.seconds nonempty reads.1 reads.2] at read
  cases read
  exact ⟨sameKind, sameName⟩

theorem created_remembers {process : Process PrivateKey Key} {spelled : String} (named : spelled ≠ "")
    (asked : process.command = .localToken (some spelled) true false) (created : process.run.result home = .ok 0) :
    RemembersMachine (strip spelled) (process.run.after home).config := by
  simp only [Process.run, asked] at created ⊢
  obtain ⟨identity, kind, key, token, expiresAt, chosen, machine, _, config, _⟩ := cmdAuthLocal_ok created
  have given : identity = spelled := by
    simp only [textOr, Option.getD_some, if_pos named, Json.str.injEq] at chosen
    exact chosen.symm
  have forced : kind = true := by
    rw [← machine]
    rfl
  rw [config, forced, given]
  exact rememberedConfig_remembers rfl

theorem runProcesses_remembers {rest : List (Process PrivateKey Key)} (remembers : RemembersMachine name home.config)
    (stays : ∀ process ∈ rest, StaysMachine name process) :
    RemembersMachine name (runProcesses home rest).config :=
  (runProcesses_filed ⟨remembers, fun _ _ _ => trivial⟩ fun process member => keeping_machine (stays process member) :
    Filed (RemembersMachine name) (fun _ => True) (runProcesses home rest)).config

/-- Once `ledger auth local --machine` named an identity, and until `--human` or another identity is asked for, every
    token minted for it is a machine's, spelled as asked: the one minted on the spot when the stored credential is
    gone, and the one of every later `ledger auth local`. -/
theorem machine_kind_inherited {first : Process PrivateKey Key} {rest : List (Process PrivateKey Key)}
    {spelled : String} (named : spelled ≠ "") (asked : first.command = .localToken (some spelled) true false)
    (created : first.run.result home = .ok 0) (stays : ∀ process ∈ rest, StaysMachine (strip spelled) process) :
    (∀ (env : AuthEnv PrivateKey Key) token,
      lowered (strip (env.get "LEDGER_LOCAL_IDENTITY")) = lowered (strip spelled) →
      (autoMintLocalToken env).result (runProcesses home (first :: rest)) = .ok (some token) →
      MachineToken env (strip (env.get "LEDGER_LOCAL_IDENTITY")) token) ∧
    ∀ (process : Process PrivateKey Key) again machine, process.command = .localToken again machine false →
      AsksFor (strip spelled) again → process.run.result (runProcesses home (first :: rest)) = .ok 0 →
      ∃ identity token expiresAt,
        textOr again ((runProcesses home (first :: rest)).config.get "local_identity") = .str identity ∧
        (process.run.after (runProcesses home (first :: rest))).credentials.get "local" =
          .obj (localCredential token expiresAt) ∧
        MachineToken process.env (strip identity) token := by
  have remembers : RemembersMachine (strip spelled) (runProcesses home (first :: rest)).config := by
    show RemembersMachine (strip spelled) (runProcesses (first.run.after home) rest).config
    exact runProcesses_remembers (created_remembers named asked created) stays
  refine ⟨?_, ?_⟩
  · intro env token same minted
    obtain ⟨key, coded⟩ := autoMintLocalToken_ok minted
    rw [autoMintMachine_inherited remembers same] at coded
    exact machineToken_of_mint coded
  · intro process again machine ran asks minted
    simp only [Process.run, ran] at minted ⊢
    obtain ⟨identity, kind, key, token, expiresAt, chosen, same, coded, _, stored⟩ := cmdAuthLocal_ok minted
    rw [localMachine_inherited remembers asks chosen] at same
    subst same
    exact ⟨identity, token, expiresAt, chosen, stored, machineToken_of_mint coded⟩

end Inheritance

section Triage

def triageJwt : Jwt Unit Unit where
  peek token := match chars token with
    | 'm' :: name => some (localPayload 1700000000 (String.ofList name) true)
    | 'h' :: name => some (localPayload 1700000000 (String.ofList name) false)
    | _ => none
  keyId _ := return some "local-1"
  decode _ _ _ token := match chars token with
    | 'm' :: name => return localPayload 1700000000 (String.ofList name) true
    | 'h' :: name => return localPayload 1700000000 (String.ofList name) false
    | _ => .error (.invalidToken "Not enough segments")
  encode payload _ := String.ofList ((if payload.has "azp" then 'm' else 'h') :: chars (pyStr (payload.get "sub")))
  publicKey key := key

def triageEnv (identity : String) : AuthEnv Unit Unit where
  environ name := if name = "LEDGER_LOCAL_IDENTITY" then some identity else none
  jwt := triageJwt
  signingKey _ _ := .error (.jwkClient "offline")
  discovery _ := .error (.runtimeError "offline")
  readText path := .error (.osError path)
  seconds := 1700000000
  expired _ := return true
  later _ := return .int 1700604800
  freshKey := ()

def offline : Provider := ⟨fun _ _ => .error (.runtimeError "offline"), fun _ _ _ => .error (.runtimeError "offline"),
  fun _ _ _ => .error (.runtimeError "offline")⟩

def triageStart : Process Unit Unit := ⟨triageEnv "", offline, .localToken (some " Triage/0.32.0-57F1ef1") true false⟩

def triageRest : List (Process Unit Unit) :=
  [⟨triageEnv "", offline, .logout true⟩, ⟨triageEnv "", offline, .localToken none false false⟩]

theorem triage_readable (writer reader : String) : DecodesFor (triageEnv writer) (triageEnv reader) where
  shown key issuer audience token claims decoded := by
    simp only [triageEnv, triageJwt] at decoded ⊢
    split at decoded
    · cases decoded
      rfl
    · cases decoded
      rfl
    · cases decoded
  shownAgain identity machine key := by
    have sub : (localPayload 1700000000 identity machine).get "sub" = .str identity := by
      cases machine <;> simp [localPayload, Dict.ofList, Dict.update]
    have azp : (localPayload 1700000000 identity machine).has "azp" = machine := by
      cases machine <;> simp [localPayload, Dict.ofList, Dict.update, Dict.has]
    simp only [triageEnv, triageJwt, sub, azp, pyStr, chars_ofList]
    cases machine <;> simp [chars_eq_toList]

theorem triageRest_stays : ∀ process ∈ triageRest, StaysMachine (strip " Triage/0.32.0-57F1ef1") process := by
  intro process member asked machine human ran
  simp only [triageRest, List.mem_cons, List.not_mem_nil, or_false] at member
  rcases member with rfl | rfl
  · cases ran
  · cases ran
    exact ⟨rfl, fun identity same => by cases same⟩

theorem machine_kind_inherited_triage :
    ∃ token actor, (autoMintLocalToken (triageEnv "triage/0.32.0-57f1ef1 ")).result
        (runProcesses Home.empty (triageStart :: triageRest)) = .ok (some token) ∧
      (TokenVerifier.mk { } [⟨none, ()⟩]).verify (triageEnv "") token = .ok actor ∧ actor.kind = "machine" ∧
      actor.identity = some "triage/0.32.0-57f1ef1" := by
  have asked : triageStart.command = .localToken (some " Triage/0.32.0-57F1ef1") true false := rfl
  have created : triageStart.run.result Home.empty = .ok 0 := by decide +kernel
  have minted : (autoMintLocalToken (triageEnv "triage/0.32.0-57f1ef1 ")).result
      (runProcesses Home.empty (triageStart :: triageRest)) = .ok (some "mtriage/0.32.0-57f1ef1") := by decide +kernel
  have token := (machine_kind_inherited (by decide) asked created triageRest_stays).1
    (triageEnv "triage/0.32.0-57f1ef1 ") "mtriage/0.32.0-57f1ef1" (by decide +kernel) minted
  obtain ⟨actor, accepted⟩ := exists_of_isOk (show ((TokenVerifier.mk { } [⟨none, ()⟩]).verify (triageEnv "")
    "mtriage/0.32.0-57f1ef1").isOk = true by decide +kernel)
  have named : strip ((triageEnv "triage/0.32.0-57f1ef1 ").get "LEDGER_LOCAL_IDENTITY") = "triage/0.32.0-57f1ef1" := by
    decide +kernel
  rw [named] at token
  exact ⟨_, actor, minted, accepted, token _ _ actor (triage_readable _ _) ⟨by decide, by decide⟩ accepted⟩

end Triage

end LedgerProof
