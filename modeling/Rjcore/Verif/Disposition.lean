import Rjcore.Interaction.Interleaving
import Rjcore.Service.Methods

/-!
# The disposition of `SIGCHLD`

`mySystem` saves the disposition of the process, sets the default one, runs its command and
restores what it saved. Any number of threads do this at once. The disposition is the
default one while a command runs, and the initial one while no call is in progress, as long
as a disposition other than the default is restored only when no other call is in progress:
then the one call that saved the initial disposition is the last to restore
(`Owned`).
-/

namespace Rjcore

open Interaction

/-- Where a thread stands in `mySystem`. -/
inductive SystemPhase
  | idle
  /-- The command is about to run or running. -/
  | inside (saved : Disposition)
  /-- The command has ended, the disposition is not restored yet. -/
  | finished (saved : Disposition)
  deriving DecidableEq

/-- The order of the events of `mySystem`. -/
def mySystemMonitor : Monitor os SystemPhase
  | .idle, .signal .default, saved => some (.inside saved)
  | .inside saved, .system _, _ => some (.finished saved)
  | .finished saved, .signal restored, _ => if restored = saved then some .idle else none
  | _, .signal _, _ => none
  | _, .system _, _ => none
  | phase, _, _ => some phase

/-- The disposition of the process: `signal` exchanges it. -/
def signalWorld : World os Disposition
  | current, .signal disposition, old, after => old = current ∧ after = disposition
  | current, _, _, after => after = current

/-- A program that enters and leaves `mySystem` in order. -/
def InOrderOfSystem {α : Type} (program : Program os α) : Prop :=
  program.Obeys mySystemMonitor .idle fun phase _ => phase = .idle

/-- Every method enters and leaves `mySystem` in order. -/
theorem system_discipline (platform : Platform) : Discipline platform InOrderOfSystem := by
  refine .of_operations (fun _ => rfl) (fun first second => ?_) (fun op plain answer => ?_)
    fun cmd => ?_
  · refine Program.Obeys.bind first fun phase value idle => ?_
    subst idle
    exact second value
  · exact ⟨.idle, by cases op <;> first | rfl | exact plain.elim, rfl⟩
  · unfold mySystem
    split
    · exact rfl
    · intro saved
      refine ⟨.inside saved, rfl, fun status => ⟨.finished saved, rfl, fun _ => ?_⟩⟩
      exact ⟨.idle, if_pos rfl, rfl⟩

/-- What one step does to the disposition and to the phase of its thread. -/
theorem system_step {current after : Disposition} {phase next : SystemPhase} {event : Event os}
    (moves : signalWorld current event.op event.answer after)
    (accepted : mySystemMonitor phase event.op event.answer = some next) :
    (phase = .idle ∧ next = .inside current ∧ after = .default) ∨
      (∃ saved, phase = .inside saved ∧ next = .finished saved ∧ after = current) ∨
      (∃ saved answer, event = ⟨.signal saved, answer⟩ ∧ phase = .finished saved ∧
        next = .idle ∧ after = saved) ∨
      (next = phase ∧ after = current) := by
  obtain ⟨op, answer⟩ := event
  cases op with
  | signal disposition =>
    obtain ⟨rfl, rfl⟩ := moves
    cases phase with
    | idle =>
      cases after with
      | default => exact .inl ⟨rfl, (Option.some.inj accepted).symm, rfl⟩
      | _ => exact absurd accepted (by simp [mySystemMonitor])
    | inside saved => exact absurd accepted (by simp [mySystemMonitor])
    | finished saved =>
      simp only [mySystemMonitor] at accepted
      split at accepted
      · rename_i same
        subst same
        exact .inr (.inr (.inl ⟨_, _, rfl, rfl, (Option.some.inj accepted).symm, rfl⟩))
      · contradiction
  | system command =>
    cases phase with
    | inside saved =>
      exact .inr (.inl ⟨saved, rfl, (Option.some.inj accepted).symm, moves⟩)
    | _ => exact absurd accepted (by simp [mySystemMonitor])
  | _ =>
    refine .inr (.inr (.inr ⟨?_, moves⟩))
    cases phase <;> exact (Option.some.inj accepted).symm

/-- The disposition a thread will restore. -/
def SystemPhase.saves : SystemPhase → Option Disposition
  | .idle => none
  | .inside saved | .finished saved => some saved

/-- The phase of a thread after a log. -/
def phaseAfter {ι : Type} [DecidableEq ι] (log : List (ι × Event os)) (thread : ι) :
    Option SystemPhase :=
  mySystemMonitor.after .idle (ownTrace thread log)

/-- A disposition other than the default is restored only while no other call is in
progress. -/
def RestoredAlone {ι : Type} [DecidableEq ι] (log : List (ι × Event os)) : Prop :=
  ∀ before thread saved answer after, log = before ++ (thread, ⟨.signal saved, answer⟩) :: after →
    phaseAfter before thread = some (.finished saved) → saved ≠ .default →
      ∀ other, other ≠ thread → phaseAfter before other = some .idle

/-- No call is in progress and the disposition is the initial one, or one call in progress
saved the initial disposition, all others saved the default one, and that is set. -/
inductive Owned {ι : Type} (initial : Disposition) : Disposition × (ι → SystemPhase) → Prop
  | free {phase : ι → SystemPhase} (idle : ∀ thread, phase thread = .idle) :
    Owned initial (initial, phase)
  | taken {phase : ι → SystemPhase} (owner : ι) (own : (phase owner).saves = some initial)
      (others : ∀ thread, thread ≠ owner → phase thread = .idle ∨
        (phase thread).saves = some .default) :
    Owned initial (.default, phase)

namespace Owned

variable {ι : Type} [DecidableEq ι] {initial current : Disposition} {phase : ι → SystemPhase}
  {thread : ι}

/-- A thread that enters owns the initial disposition when it is the first. -/
theorem enter (owned : Owned initial (current, phase)) (idle : phase thread = .idle) :
    Owned initial (.default, Function.update phase thread (.inside current)) := by
  cases owned with
  | free all =>
    refine .taken thread (by rw [Function.update_self]; rfl) fun other different => ?_
    rw [Function.update_of_ne different]
    exact .inl (all other)
  | taken owner own others =>
    have different : owner ≠ thread := by
      rintro rfl
      rw [idle] at own
      contradiction
    refine .taken owner (by rwa [Function.update_of_ne different]) fun other notOwner => ?_
    by_cases same : other = thread
    · subst same
      rw [Function.update_self]
      exact .inr rfl
    · rw [Function.update_of_ne same]
      exact others other notOwner

/-- Ending the command keeps what the thread will restore. -/
theorem finish {saved : Disposition} (owned : Owned initial (current, phase))
    (inside : phase thread = .inside saved) :
    Owned initial (current, Function.update phase thread (.finished saved)) := by
  have kept : ∀ other, (Function.update phase thread (.finished saved) other).saves =
      (phase other).saves := by
    intro other
    by_cases same : other = thread
    · subst same
      rw [Function.update_self, inside]
      rfl
    · rw [Function.update_of_ne same]
  cases owned with
  | free all =>
    rw [all thread] at inside
    contradiction
  | taken owner own others =>
    refine .taken owner ((kept owner).trans own) fun other notOwner => ?_
    by_cases same : other = thread
    · subst same
      rcases others other notOwner with idle | default
      · rw [inside] at idle
        contradiction
      · exact .inr ((kept other).trans default)
    · rw [Function.update_of_ne same]
      exact others other notOwner

/-- The owner leaves the initial disposition, alone or among calls that saved the same. -/
theorem leave {saved : Disposition} (owned : Owned initial (current, phase))
    (finished : phase thread = .finished saved)
    (alone : saved ≠ .default → ∀ other, other ≠ thread → phase other = .idle) :
    Owned initial (saved, Function.update phase thread .idle) := by
  cases owned with
  | free all =>
    rw [all thread] at finished
    contradiction
  | taken owner own others =>
    by_cases isOwner : thread = owner
    · subst isOwner
      rw [finished] at own
      have same : saved = initial := Option.some.inj own
      subst same
      by_cases busy : ∃ other, other ≠ thread ∧ phase other ≠ .idle
      · -- another call is in progress, so the saved disposition is the default one
        obtain ⟨other, different, inProgress⟩ := busy
        have default : saved = .default := by
          by_contra special
          exact inProgress (alone special other different)
        subst default
        refine .taken other ?_ fun third _ => ?_
        · rw [Function.update_of_ne different]
          exact (others other different).resolve_left inProgress
        · by_cases same : third = thread
          · subst same
            exact .inl (Function.update_self ..)
          · rw [Function.update_of_ne same]
            exact others third same
      · refine .free fun other => ?_
        by_cases same : other = thread
        · subst same
          exact Function.update_self ..
        · rw [Function.update_of_ne same]
          by_contra inProgress
          exact busy ⟨other, same, inProgress⟩
    · have default : saved = .default := by
        rcases others thread isOwner with idle | default
        · rw [finished] at idle
          contradiction
        · rw [finished] at default
          exact Option.some.inj default
      subst default
      refine .taken owner (by rwa [Function.update_of_ne (Ne.symm isOwner)]) fun other notOwner => ?_
      by_cases same : other = thread
      · subst same
        exact .inl (Function.update_self ..)
      · rw [Function.update_of_ne same]
        exact others other notOwner

end Owned

section Threads

variable {ι : Type} [DecidableEq ι] {initial : Disposition}

/-- Restores alone in a log are alone in its front. -/
theorem RestoredAlone.front {log : List (ι × Event os)} {entry : ι × Event os}
    (alone : RestoredAlone (log ++ [entry])) : RestoredAlone log := by
  intro before thread saved answer after whole
  refine alone before thread saved answer (after ++ [entry]) ?_
  rw [whole, List.append_assoc, List.cons_append]

/-- Along every interleaving that restores alone, the disposition is owned. -/
theorem owned_of_shadow {log : List (ι × Event os)} {final : Disposition × (ι → SystemPhase)}
    (shadow : Shadow signalWorld (fun _ : ι => mySystemMonitor) (initial, fun _ => .idle) log final)
    (alone : RestoredAlone log) : Owned initial final := by
  induction shadow with
  | start => exact .free fun _ => rfl
  | @step log current after phase next thread event earlier moves accepted ih =>
    have owned := ih alone.front
    rcases system_step moves accepted with ⟨idle, rfl, rfl⟩ | ⟨saved, inside, rfl, rfl⟩ |
      ⟨saved, answer, rfl, finished, rfl, rfl⟩ | ⟨rfl, rfl⟩
    · exact owned.enter idle
    · exact owned.finish inside
    · refine owned.leave finished fun special other different => ?_
      have phases : ∀ each, phaseAfter log each = some (phase each) := earlier.phase_eq
      have idle := alone log thread after answer [] rfl (by rw [phases, finished]) special other
        different
      rw [phases] at idle
      exact Option.some.inj idle
    · rwa [Function.update_eq_self]

/-- In every interleaving of any number of threads that serve any calls, and for any initial
disposition, the disposition is the default one while a command runs and the initial one
while no call is in progress, when every other disposition was restored alone. -/
theorem sigchld_kept (platform : Platform) (self : RjcoreService) (calls : ι → List Call)
    {log : List (ι × Event os)} {config : Disposition × (ι → Program os Unit)}
    (run : Reaches signalWorld (initial, fun thread => self.serve platform (calls thread)) log config)
    (alone : RestoredAlone log) :
    (∀ thread saved, phaseAfter log thread = some (.inside saved) → config.1 = .default) ∧
      ((∀ thread, phaseAfter log thread = some .idle) → config.1 = initial) := by
  have inOrder : ∀ thread, InOrderOfSystem (self.serve platform (calls thread)) :=
    fun thread => (system_discipline platform).serve self (calls thread)
  obtain ⟨phase, shadow, _⟩ := run.shadow inOrder
  have phases : ∀ thread, phaseAfter log thread = some (phase thread) := shadow.phase_eq
  have owned := owned_of_shadow shadow alone
  obtain ⟨current, pool⟩ := config
  cases owned with
  | free idle =>
    refine ⟨fun thread saved inside => ?_, fun _ => rfl⟩
    rw [phases, idle] at inside
    cases inside
  | taken owner own others =>
    refine ⟨fun _ _ _ => rfl, fun idle => ?_⟩
    have ownerIdle := idle owner
    rw [phases] at ownerIdle
    rw [Option.some.inj ownerIdle] at own
    contradiction

end Threads

/-- The system exchanges dispositions and is uneventful otherwise. -/
def exchanging (current : Disposition) : (op : Op) → op.Answer × Disposition
  | .signal disposition => (current, disposition)
  | op => (op.uneventful, current)

/-- The world allows these answers. -/
theorem exchanging_allowed (current : Disposition) (op : Op) :
    signalWorld current op (exchanging current op).1 (exchanging current op).2 := by
  cases op with
  | signal disposition => exact ⟨rfl, rfl⟩
  | _ => exact rfl

/-- Two threads that each serve one call, in a process that handles `SIGCHLD`. -/
def twoReboots : Disposition × (Bool → Program os Unit) :=
  (.handler 7, fun _ => RjcoreService.serve (.plain false) ⟨false, [], [], [], []⟩ [.reboot])

/-- The first thread reboots, and then the second one enters. -/
def oneAfterTheOther : List (Bool × Event os) :=
  [(false, ⟨.signal .default, .handler 7⟩), (false, ⟨.system (.literal "reboot"), .exited 0⟩),
    (false, ⟨.signal (.handler 7), .default⟩), (true, ⟨.signal .default, .handler 7⟩)]

/-- The handler is restored alone. -/
theorem oneAfterTheOther_alone : RestoredAlone oneAfterTheOther := by
  intro before thread saved answer after whole _ special other different
  rcases before with _ | ⟨first, _ | ⟨second, _ | ⟨third, _ | ⟨fourth, before⟩⟩⟩⟩
  · cases whole
    exact absurd rfl special
  · cases whole
  · cases whole
    cases other
    · exact absurd rfl different
    · decide
  · cases whole
    exact absurd rfl special
  · have lengths := congrArg List.length whole
    simp only [oneAfterTheOther, List.cons_append, List.length_cons, List.length_append,
      List.length_nil] at lengths
    omega

/-- One thread after the other keeps the disposition. -/
theorem sigchld_kept_reboots : ∃ config, Reaches signalWorld twoReboots oneAfterTheOther config ∧
    (∀ thread saved, phaseAfter oneAfterTheOther thread = some (.inside saved) →
      config.1 = .default) ∧
    ((∀ thread, phaseAfter oneAfterTheOther thread = some .idle) → config.1 = .handler 7) := by
  obtain ⟨config, played⟩ : ∃ config, play exchanging [false, false, false, true] [] twoReboots =
      some (oneAfterTheOther, config) := ⟨_, rfl⟩
  have run := play_reaches exchanging_allowed _ .start played
  exact ⟨config, run, sigchld_kept (.plain false) ⟨false, [], [], [], []⟩ (fun _ => [.reboot]) run
    oneAfterTheOther_alone⟩

/-- The first of two overlapping calls to end restores its handler while the second runs
its command. -/
theorem not_sigchld_kept :
    ¬∀ (platform : Platform) (self : RjcoreService) (calls : Bool → List Call)
      (initial : Disposition) (log : List (Bool × Event os))
      (config : Disposition × (Bool → Program os Unit)),
      Reaches signalWorld (initial, fun thread => self.serve platform (calls thread)) log config →
        (∀ thread saved, phaseAfter log thread = some (.inside saved) → config.1 = .default) ∧
          ((∀ thread, phaseAfter log thread = some .idle) → config.1 = initial) := by
  intro kept
  obtain ⟨log, config, played, inside, disposition⟩ : ∃ log config,
      play exchanging [false, true, false, false] [] twoReboots = some (log, config) ∧
        phaseAfter log true = some (.inside .default) ∧ config.1 = .handler 7 :=
    ⟨_, _, rfl, by decide, rfl⟩
  have run := play_reaches exchanging_allowed _ .start played
  have default := (kept _ _ _ _ _ _ run).1 true .default inside
  rw [disposition] at default
  contradiction

end Rjcore
