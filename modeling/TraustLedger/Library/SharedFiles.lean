import TraustLedger.Library.Runs
import Mathlib.Logic.Function.Basic

namespace SharedFiles

open Runs

/-- What a client does to a file shared under a lock. A locked client reads, changes and writes the file under the
    lock; the others read it first and take the lock only to write. -/
structure Program (σ ε : Type) where
  locked : Bool
  apply : σ → Except ε σ

inductive Phase (σ : Type) where
  | ready
  | prepared (read next : σ)
  | inside
  | writing (read next : σ)
  | leaving (result : Option σ)
  | finished (result : Option σ)

def Phase.holds {σ : Type} : Phase σ → Bool
  | .inside | .writing _ _ | .leaving _ => true
  | _ => false

def Phase.result {σ : Type} : Phase σ → Option σ
  | .finished result => result
  | _ => none

theorem Phase.result_eq_some {σ : Type} {phase : Phase σ} {result : σ} :
    phase.result = some result ↔ phase = .finished (some result) := by
  cases phase <;> simp [Phase.result]

structure World (ι σ : Type) where
  file : σ
  lock : Option ι
  phase : ι → Phase σ

variable {ι σ ε : Type} [DecidableEq ι]

def World.start (file : σ) : World ι σ := ⟨file, none, fun _ => .ready⟩

def World.move (world : World ι σ) (client : ι) (phase : Phase σ) : World ι σ :=
  { world with phase := Function.update world.phase client phase }

def World.acquire (world : World ι σ) (client : ι) (phase : Phase σ) : Except Unit (World ι σ) :=
  if world.lock = none then .ok { world.move client phase with lock := some client } else .error ()

def advance (programs : ι → Program σ ε) (world : World ι σ) (client : ι) : Except Unit (World ι σ) :=
  match world.phase client with
  | .ready =>
    if (programs client).locked then world.acquire client .inside
    else match (programs client).apply world.file with
      | .ok next => .ok (world.move client (.prepared world.file next))
      | .error _ => .ok (world.move client (.finished none))
  | .prepared read next => world.acquire client (.writing read next)
  | .inside => match (programs client).apply world.file with
    | .ok next => .ok (world.move client (.writing world.file next))
    | .error _ => .ok (world.move client (.leaving none))
  | .writing _ next => .ok { world.move client (.leaving (some next)) with file := next }
  | .leaving result => .ok { world.move client (.finished result) with lock := none }
  | .finished _ => .error ()

section Consistency

variable (R : σ → σ → Prop) (programs : ι → Program σ ε)

/-- What is known of a client in a phase, with `R old new` where nothing that counts in `old` is missing from
    `new`. -/
def Sound (program : Program σ ε) (file : σ) : Phase σ → Prop
  | .prepared read next => program.locked = false ∧ program.apply read = .ok next
  | .writing read next => program.apply read = .ok next ∧ (program.locked = true → read = file)
  | .leaving (some next) | .finished (some next) => (∃ read, program.apply read = .ok next) ∧ R next file
  | _ => True

structure Consistent (world : World ι σ) : Prop where
  holder : ∀ client, (world.phase client).holds = true → world.lock = some client
  sound : ∀ client, Sound R (programs client) world.file (world.phase client)

def OverwritesNothing (world : World ι σ) (client : ι) : Prop :=
  (programs client).locked = false →
    ∀ read next, world.phase client = .writing read next → R world.file read

variable {R programs} {world next : World ι σ} {client : ι}

theorem Sound.later (trans : ∀ a b c, R a b → R b c → R a c) {program : Program σ ε} {file later : σ}
    {phase : Phase σ} (outside : phase.holds = false) (grown : R file later) (sound : Sound R program file phase) :
    Sound R program later phase := by
  cases phase with
  | ready => trivial
  | prepared read next => exact sound
  | inside => cases outside
  | writing read next => cases outside
  | leaving result => cases outside
  | finished result =>
    cases result with
    | none => trivial
    | some next => exact ⟨sound.1, trans _ _ _ sound.2 grown⟩

theorem Consistent.move (consistent : Consistent R programs world) {phase : Phase σ}
    (held : phase.holds = true → world.lock = some client) (sound : Sound R (programs client) world.file phase) :
    Consistent R programs (world.move client phase) := by
  constructor
  · intro other
    by_cases same : other = client
    · subst same
      simpa [World.move] using held
    · simpa [World.move, same] using consistent.holder other
  · intro other
    by_cases same : other = client
    · subst same
      simpa [World.move] using sound
    · simpa [World.move, same] using consistent.sound other

theorem Consistent.acquire (consistent : Consistent R programs world) {phase : Phase σ}
    (sound : Sound R (programs client) world.file phase) (accepted : world.acquire client phase = .ok next) :
    Consistent R programs next := by
  unfold World.acquire at accepted
  split at accepted
  · next free =>
    cases accepted
    -- A free lock leaves no other client inside.
    have alone : Consistent R programs { world with lock := some client } := by
      refine ⟨fun other held => ?_, consistent.sound⟩
      rw [consistent.holder other held] at free
      cases free
    exact alone.move (fun _ => rfl) sound
  · cases accepted

theorem Consistent.leave (consistent : Consistent R programs world) {result : Option σ}
    (leaving : world.phase client = .leaving result) :
    Consistent R programs { world.move client (.finished result) with lock := none } := by
  have sound := consistent.sound client
  rw [leaving] at sound
  have moved : Consistent R programs (world.move client (.finished result)) := by
    apply consistent.move (fun held => by cases held)
    cases result with
    | none => trivial
    | some next => exact sound
  refine ⟨fun other held => ?_, moved.sound⟩
  have holder := moved.holder other held
  have entered := consistent.holder client (by rw [leaving]; rfl)
  by_cases same : other = client
  · subst same
    simp [World.move, Phase.holds] at held
  · cases entered.symm.trans holder
    exact absurd rfl same

theorem Consistent.write (refl : ∀ s, R s s) (trans : ∀ a b c, R a b → R b c → R a c)
    (consistent : Consistent R programs world) {read written : σ}
    (writing : world.phase client = .writing read written) (grown : R world.file written) :
    Consistent R programs { world.move client (.leaving (some written)) with file := written } := by
  have sound := consistent.sound client
  rw [writing] at sound
  have entered := consistent.holder client (by rw [writing]; rfl)
  constructor
  · intro other held
    by_cases same : other = client
    · rw [same]
      exact entered
    · exact consistent.holder other (by simpa [World.move, same] using held)
  · intro other
    by_cases same : other = client
    · subst same
      simpa [World.move, Sound] using ⟨⟨read, sound.1⟩, refl written⟩
    · -- The lock is the writer's, so every other client is outside.
      have outside : (world.phase other).holds = false := by
        rw [Bool.eq_false_iff]
        intro held
        cases entered.symm.trans (consistent.holder other held)
        exact same rfl
      simpa [World.move, same] using (consistent.sound other).later trans outside grown

theorem Consistent.advance (refl : ∀ s, R s s) (trans : ∀ a b c, R a b → R b c → R a c)
    (extensive : ∀ client s t, (programs client).apply s = .ok t → R s t)
    (consistent : Consistent R programs world) (allowed : OverwritesNothing R programs world client)
    (accepted : advance programs world client = .ok next) : Consistent R programs next := by
  have sound := consistent.sound client
  have holder := consistent.holder client
  unfold SharedFiles.advance at accepted
  split at accepted
  · split at accepted
    · apply consistent.acquire _ accepted
      trivial
    · next unlocked =>
      split at accepted
      · next computed =>
        cases accepted
        exact consistent.move (fun held => by cases held) ⟨Bool.eq_false_iff.mpr unlocked, computed⟩
      · cases accepted
        exact consistent.move (fun held => by cases held) trivial
  · next prepared =>
    rw [prepared] at sound
    apply consistent.acquire _ accepted
    exact ⟨sound.2, fun locked => absurd (sound.1.symm.trans locked) Bool.false_ne_true⟩
  · next inside =>
    rw [inside] at holder
    split at accepted
    · next computed =>
      cases accepted
      exact consistent.move (fun _ => holder rfl) ⟨computed, fun _ => rfl⟩
    · cases accepted
      exact consistent.move (fun _ => holder rfl) trivial
  · next read written writing =>
    cases accepted
    rw [writing] at sound
    have extended := extensive client read written sound.1
    apply consistent.write refl trans writing
    cases locked : (programs client).locked with
    | true =>
      rw [← sound.2 locked]
      exact extended
    | false => exact trans _ _ _ (allowed locked read written writing) extended
  · next leaving =>
    cases accepted
    exact consistent.leave leaving
  · cases accepted

/-- Whatever the order of the steps, a client that finished has written a result of its own, and nothing that
    counts in it is missing from the file. -/
theorem finished_kept (refl : ∀ s, R s s) (trans : ∀ a b c, R a b → R b c → R a c)
    (extensive : ∀ client s t, (programs client).apply s = .ok t → R s t) {file result : σ} {schedule : List ι}
    (allowed : Along (advance programs) (OverwritesNothing R programs) (World.start file) schedule)
    (finished : ((run (advance programs) (World.start file) schedule).phase client).result = some result) :
    (∃ read, (programs client).apply read = .ok result) ∧
      R result (run (advance programs) (World.start file) schedule).file := by
  have start : Consistent R programs (World.start file) :=
    ⟨fun _ held => absurd held Bool.false_ne_true, fun _ => trivial⟩
  have consistent : Consistent R programs (run (advance programs) (World.start file) schedule) := by
    apply run_invariant _ start allowed
    intro world client next consistent permitted accepted
    exact consistent.advance refl trans extensive permitted accepted
  have sound := consistent.sound client
  rw [Phase.result_eq_some.mp finished] at sound
  exact sound

end Consistency

end SharedFiles
