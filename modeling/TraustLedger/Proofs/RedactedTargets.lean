import TraustLedger.Projection
import Mathlib.Data.List.TakeWhile

namespace LedgerProof

open Python LedgerModel

variable {fuel : Nat} {c : Char} {text word rest after : List Char}

theorem afterCredentials_shorter (found : afterCredentials text = some after) : after.length < text.length := by
  unfold afterCredentials at found
  split at found
  · next rest =>
    have bound : (rest.dropWhile inAuthority).length ≤ rest.length := (List.dropWhile_sublist _).length_le
    split at found
    · next tail ends =>
      rw [ends, List.length_cons] at bound
      split_ifs at found
      cases found
      simp only [List.length_cons]
      omega
    · cases found
  · cases found

theorem afterCredentials_plain (plain : c ≠ ':') : afterCredentials (c :: text) = none := by
  unfold afterCredentials
  split
  · next start =>
    rw [List.cons.injEq] at start
    exact absurd start.1 plain
  · rfl

theorem redactChars_fuel {more : Nat} (enough : text.length ≤ fuel) (larger : text.length ≤ more) :
    redactChars fuel text = redactChars more text := by
  induction fuel generalizing text more with
  | zero =>
    rw [Nat.le_zero, List.length_eq_zero_iff] at enough
    subst enough
    cases more <;> rfl
  | succ fuel ih =>
    cases text with
    | nil => cases more <;> rfl
    | cons c text =>
      cases more with
      | zero => cases larger
      | succ more =>
        rw [List.length_cons, Nat.add_le_add_iff_right] at enough larger
        rw [redactChars, redactChars]
        cases found : afterCredentials (c :: text) with
        | none =>
          dsimp only
          rw [ih enough larger]
        | some after =>
          have shorter := afterCredentials_shorter found
          rw [List.length_cons] at shorter
          have same : redactChars fuel after = redactChars more after := ih (by omega) (by omega)
          dsimp only
          rw [same]

def redacted (text : List Char) : List Char := redactChars text.length text

theorem redacted_cons_none (unmatched : afterCredentials (c :: text) = none) :
    redacted (c :: text) = c :: redacted text := by
  rw [redacted, List.length_cons, redactChars, unmatched]
  rfl

theorem redacted_cons_some (found : afterCredentials (c :: text) = some after) :
    redacted (c :: text) = chars "://***:***@" ++ redacted after := by
  have shorter := afterCredentials_shorter found
  rw [List.length_cons] at shorter
  rw [redacted, List.length_cons, redactChars, found]
  dsimp only
  rw [redactChars_fuel (by omega) (Nat.le_refl after.length), redacted]

theorem redacted_plain (plain : ':' ∉ word) : redacted (word ++ rest) = word ++ redacted rest := by
  induction word with
  | nil => rfl
  | cons c word ih =>
    rw [List.mem_cons, not_or] at plain
    rw [List.cons_append, redacted_cons_none (afterCredentials_plain (Ne.symm plain.1)), ih plain.2, List.cons_append]

section Authorities

variable {run : List Char}

theorem takeWhile_run (rest : List Char) (inside : run.all inAuthority = true) (stop : inAuthority c = false) :
    (run ++ c :: rest).takeWhile inAuthority = run ∧ (run ++ c :: rest).dropWhile inAuthority = c :: rest := by
  rw [List.all_eq_true] at inside
  constructor
  · rw [List.takeWhile_append_of_pos inside, List.takeWhile_cons_of_neg (by simp [stop]), List.append_nil]
  · rw [List.dropWhile_append_of_pos inside, List.dropWhile_cons_of_neg (by simp [stop])]

theorem redacted_credentials (rest : List Char) (inside : run.all inAuthority = true) (colon : ':' ∈ run) :
    redacted (':' :: '/' :: '/' :: (run ++ '@' :: rest)) = chars "://***:***@" ++ redacted rest := by
  rcases takeWhile_run rest inside (by decide : inAuthority '@' = false) with ⟨taken, dropped⟩
  apply redacted_cons_some
  simp only [afterCredentials, taken, dropped, if_pos colon]

theorem redacted_slash (rest : List Char) (inside : run.all inAuthority = true) :
    redacted (':' :: '/' :: '/' :: (run ++ '/' :: rest)) = ':' :: '/' :: '/' :: redacted (run ++ '/' :: rest) := by
  rcases takeWhile_run rest inside (by decide : inAuthority '/' = false) with ⟨-, dropped⟩
  have unmatched : afterCredentials (':' :: '/' :: '/' :: (run ++ '/' :: rest)) = none := by
    simp only [afterCredentials, dropped]
    rfl
  rw [redacted_cons_none unmatched, redacted_cons_none (afterCredentials_plain (by decide)),
    redacted_cons_none (afterCredentials_plain (by decide))]

/-- Up to its first slash a text without an `@` is kept: a pattern that starts there starts with its last colon. -/
theorem redacted_keeps_run (inside : run.all inAuthority = true) : run <+: redacted (run ++ '/' :: rest) := by
  induction run with
  | nil => exact List.nil_prefix
  | cons c run ih =>
    rw [List.all_cons, Bool.and_eq_true] at inside
    cases found : afterCredentials (c :: (run ++ '/' :: rest)) with
    | none =>
      rw [List.cons_append, redacted_cons_none found]
      exact List.cons_prefix_cons.mpr ⟨rfl, ih inside.2⟩
    | some after =>
      rw [List.cons_append, redacted_cons_some found]
      -- the slashes of the pattern are the one the run ends at, so the colon is the whole of it
      have start : c = ':' ∧ run = [] := by
        unfold afterCredentials at found
        split at found
        · next tail start =>
          rw [List.cons.injEq] at start
          refine ⟨start.1, ?_⟩
          cases run with
          | nil => rfl
          | cons d run =>
            rw [List.cons_append, List.cons.injEq] at start
            rw [List.all_cons, start.2.1] at inside
            exact absurd inside.2 (by simp [inAuthority])
        · cases found
      rw [start.1, start.2]
      exact ⟨_, rfl⟩

theorem redacted_unmatched {user : List Char} (rest : List Char) (named : ':' ∉ user)
    (stops : user.all inAuthority = false) :
    redacted (':' :: '/' :: '/' :: (user ++ rest)) = ':' :: '/' :: '/' :: (user ++ redacted rest) := by
  have colon : ':' ∉ (user ++ rest).takeWhile inAuthority := by
    rw [List.takeWhile_append]
    split
    · next same =>
      have whole := (List.takeWhile_prefix inAuthority).eq_of_length same
      have inside : user.all inAuthority = true := by
        rw [← whole, List.all_eq_true]
        exact fun c member => List.mem_takeWhile_imp member
      rw [inside] at stops
      cases stops
    · exact fun member => named (List.takeWhile_subset _ member)
  have unmatched : afterCredentials (':' :: '/' :: '/' :: (user ++ rest)) = none := by
    simp only [afterCredentials, colon, if_false]
    split <;> rfl
  rw [redacted_cons_none unmatched, redacted_cons_none (afterCredentials_plain (by decide)),
    redacted_cons_none (afterCredentials_plain (by decide)), redacted_plain named]

end Authorities

def credentialUrl (name user password rest : List Char) : String :=
  String.ofList (name ++ (chars "://" ++ (user ++ ':' :: (password ++ '@' :: rest))))

/-- What the URL a run reports shows of the credentials: nothing where neither part has a slash or an `@`; what follows
    the first `@` of the password; user and password up to the first slash of the password; or the user and, where it
    is no URL with credentials itself, the password, where the user has one of the two. -/
theorem redact_hides_credentials_iff (name user password rest : List Char) (scheme : ':' ∉ name) (named : ':' ∉ user) :
    (user.all inAuthority = true → password.all inAuthority = true →
      redact (credentialUrl name user password rest) =
        String.ofList (name ++ (chars "://***:***@" ++ redacted rest))) ∧
    (∀ head tail, user.all inAuthority = true → head.all inAuthority = true → password = head ++ '@' :: tail →
      redact (credentialUrl name user password rest) =
        String.ofList (name ++ (chars "://***:***@" ++ redacted (tail ++ '@' :: rest)))) ∧
    (∀ head tail, user.all inAuthority = true → head.all inAuthority = true → password = head ++ '/' :: tail →
      name ++ (chars "://" ++ (user ++ ':' :: head)) <+: chars (redact (credentialUrl name user password rest))) ∧
    (user.all inAuthority = false → redact (credentialUrl name user password rest) =
      String.ofList (name ++ (chars "://" ++ (user ++ redacted (':' :: (password ++ '@' :: rest)))))) := by
  have whole : redact (credentialUrl name user password rest) = String.ofList (name ++
      redacted (':' :: '/' :: '/' :: (user ++ ':' :: (password ++ '@' :: rest)))) := by
    rw [redact, credentialUrl, chars_ofList, ← redacted, redacted_plain scheme]
    rfl
  have joined : ∀ {head : List Char}, user.all inAuthority = true → head.all inAuthority = true →
      (user ++ ':' :: head).all inAuthority = true := by
    intro head userInside headInside
    rw [List.all_append, List.all_cons, userInside, headInside]
    decide
  rw [whole]
  refine ⟨fun userInside inside => ?_, ?_, ?_, fun stops => ?_⟩
  · have matched := redacted_credentials rest (joined userInside inside) (by simp)
    rw [List.append_assoc, List.cons_append] at matched
    rw [matched]
  · rintro head tail userInside inside rfl
    have matched := redacted_credentials (tail ++ '@' :: rest) (joined userInside inside) (by simp)
    rw [List.append_assoc, List.cons_append] at matched
    rw [List.append_assoc, List.cons_append, matched]
  · rintro head tail userInside inside rfl
    have shown := redacted_slash (tail ++ '@' :: rest) (joined userInside inside)
    rw [List.append_assoc user, List.cons_append] at shown
    rw [List.append_assoc, List.cons_append, shown, chars_ofList (name ++ _)]
    refine (List.prefix_append_right_inj name).mpr ?_
    refine List.cons_prefix_cons.mpr ⟨rfl, List.cons_prefix_cons.mpr ⟨rfl, List.cons_prefix_cons.mpr ⟨rfl, ?_⟩⟩⟩
    have kept := @redacted_keeps_run (tail ++ '@' :: rest) _ (joined userInside inside)
    rwa [List.append_assoc user, List.cons_append] at kept
  · rw [redacted_unmatched _ named stops]
    rfl

theorem redact_hides_credentials_local :
    redact (credentialUrl (chars "postgresql") (chars "ledger") (chars "s3cret") (chars "db/findings")) =
      "postgresql://***:***@db/findings" ∧
    chars "postgresql://ledger:s3" <+:
      chars (redact (credentialUrl (chars "postgresql") (chars "ledger") (chars "s3/cret") (chars "db/findings"))) ∧
    redact (credentialUrl (chars "postgresql") (chars "alice@corp") (chars "s3cret") (chars "db/ledger")) =
      "postgresql://alice@corp:s3cret@db/ledger" := by
  refine ⟨?_, ?_, ?_⟩
  · rw [(redact_hides_credentials_iff _ _ _ _ (by decide) (by decide)).1 (by decide) (by decide)]
    decide
  · exact (redact_hides_credentials_iff (chars "postgresql") (chars "ledger") (chars "s3/cret") (chars "db/findings")
      (by decide) (by decide)).2.2.1 (chars "s3") (chars "cret") (by decide) (by decide) (by decide)
  · rw [(redact_hides_credentials_iff _ _ _ _ (by decide) (by decide)).2.2.2 (by decide)]
    decide

end LedgerProof
