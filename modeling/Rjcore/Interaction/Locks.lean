import Rjcore.Interaction.Exclusion
import Rjcore.Interaction.Serving

/-!
# Locks

Threads that share any number of locks, of which each thread holds at most one at a time. A
program is balanced when it takes a lock only while it holds none, frees only the lock it
holds, and ends without one. Balanced programs exclude each other under every lock, and some
thread can always go on: a thread that waits for a lock waits for one whose holder does not
wait.
-/

namespace Interaction

/-- What an operation does to the locks. -/
inductive LockEffect (M : Type)
  | unrelated
  | acquire (mutex : M)
  | release (mutex : M)

variable {sig : Signature} {α β M ι : Type} [DecidableEq M]

/-- The locks that are held: a lock may be taken while it is free, and any answer is possible. -/
def locksWorld (effect : sig.Op → LockEffect M) : World sig (M → Bool) :=
  fun held op _ after => match effect op with
    | .unrelated => after = held
    | .acquire mutex => held mutex = false ∧ after = Function.update held mutex true
    | .release mutex => after = Function.update held mutex false

/-- A thread holds at most one lock at a time, and frees the one it holds. -/
def oneLock (effect : sig.Op → LockEffect M) : Monitor sig (Option M) :=
  fun own op _ => match effect op, own with
    | .unrelated, own => some own
    | .acquire mutex, none => some (some mutex)
    | .release mutex, some own => if own = mutex then some none else none
    | _, _ => none

/-- The lock a thread holds after a log. -/
def holding [DecidableEq ι] (effect : sig.Op → LockEffect M) (log : List (ι × Event sig))
    (thread : ι) : Option M :=
  ((oneLock effect).after none (ownTrace thread log)).join

/-- A program that takes one lock at a time and frees each. -/
def LockBalanced (effect : sig.Op → LockEffect M) (program : Program sig α) : Prop :=
  program.Obeys (oneLock effect) none fun own _ => own = none

variable {effect : sig.Op → LockEffect M}

/-- A program without locks leaves the lock that is held. -/
theorem obeys_of_unrelated {program : Program sig α} (asks : program.Asks fun op =>
    effect op = .unrelated) (own : Option M) :
    program.Obeys (oneLock effect) own fun after _ => after = own := by
  induction program with
  | done value => rfl
  | ask op next ih =>
    obtain ⟨here, later⟩ := asks
    exact fun answer => ⟨own, by simp only [oneLock, here], ih answer (later answer)⟩

namespace LockBalanced

/-- A program without locks is balanced. -/
theorem of_unrelated {program : Program sig α}
    (asks : program.Asks fun op => effect op = .unrelated) : LockBalanced effect program :=
  obeys_of_unrelated asks none

/-- A sequence of balanced programs is balanced. -/
theorem bind {program : Program sig α} {next : α → Program sig β}
    (first : LockBalanced effect program) (second : ∀ value, LockBalanced effect (next value)) :
    LockBalanced effect (program >>= next) := by
  refine Program.Obeys.bind first fun own value free => ?_
  subst free
  exact second value

/-- A program is balanced when the implementations of its operations are. -/
theorem through {outer : Signature} {program : Program outer α}
    {handler : (op : outer.Op) → Program sig (outer.Answer op)}
    (balanced : ∀ op, LockBalanced effect (handler op)) :
    LockBalanced effect (program.through handler) := by
  induction program with
  | done value => rfl
  | ask op next ih => exact (balanced op).bind ih

/-- A section under a lock, without other locks in it, is balanced. -/
theorem guarded {lock unlock : sig.Op} {mutex : M} {body : Program sig α}
    (acquires : effect lock = .acquire mutex) (releases : effect unlock = .release mutex)
    (asks : body.Asks fun op => effect op = .unrelated) :
    LockBalanced effect (.ask lock fun _ => body >>= fun value => .ask unlock fun _ => .done value) := by
  intro answer
  refine ⟨some mutex, by simp only [oneLock, acquires], ?_⟩
  refine (obeys_of_unrelated asks (some mutex)).bind fun own value same => ?_
  subst same
  exact fun _ => ⟨none, by simp only [oneLock, releases, ↓reduceIte], rfl⟩

end LockBalanced

variable [DecidableEq ι] {held after : M → Bool} {phase : ι → Option M} {thread : ι}

/-- One step of a thread keeps every lock with its only holder. -/
theorem exclusive_step {next : Option M} {event : Event sig}
    (exclusive : ∀ mutex, Exclusive (· = some mutex) (held mutex) phase)
    (moves : locksWorld effect held event.op event.answer after)
    (accepted : oneLock effect (phase thread) event.op event.answer = some next) (mutex : M) :
    Exclusive (· = some mutex) (after mutex) (Function.update phase thread next) := by
  unfold locksWorld at moves
  unfold oneLock at accepted
  cases does : effect event.op with
  | unrelated =>
    simp only [does, Option.some.injEq] at moves accepted
    subst moves accepted
    rw [Function.update_eq_self]
    exact exclusive mutex
  | acquire taken =>
    cases own : phase thread with
    | some other => simp [does, own] at accepted
    | none =>
      simp only [does, own, Option.some.injEq] at moves accepted
      obtain ⟨free, rfl⟩ := moves
      subst accepted
      by_cases same : mutex = taken
      · subst same
        have before := exclusive mutex
        rw [free] at before
        rw [Function.update_self]
        exact before.enter rfl
      · rw [Function.update_of_ne same]
        refine (exclusive mutex).move ⟨fun entered => ?_, fun inside => ?_⟩
        · exact absurd (Option.some.inj entered).symm same
        · rw [own] at inside
          contradiction
  | release freed =>
    cases own : phase thread with
    | none => simp [does, own] at accepted
    | some mine =>
      simp only [does, own] at moves accepted
      subst moves
      split at accepted
      · rename_i same
        subst same
        cases accepted
        by_cases again : mutex = mine
        · subst again
          rw [Function.update_self]
          exact (exclusive mutex).leave own nofun
        · rw [Function.update_of_ne again]
          refine (exclusive mutex).move ⟨nofun, fun inside => ?_⟩
          rw [own] at inside
          exact absurd (Option.some.inj inside).symm again
      · contradiction

/-- Along every interleaving, every lock has at most one holder, and is held when it has one. -/
theorem exclusive_of_shadow {log : List (ι × Event sig)} {final : (M → Bool) × (ι → Option M)}
    (shadow : Shadow (locksWorld effect) (fun _ : ι => oneLock effect)
      (fun _ => false, fun _ => none) log final) (mutex : M) :
    Exclusive (· = some mutex) (final.1 mutex) final.2 := by
  induction shadow generalizing mutex with
  | start => exact .free fun _ => nofun
  | step earlier moves accepted ih => exact exclusive_step ih moves accepted mutex

/-- What threads that share locks rely on. -/
structure LocksKept (effect : sig.Op → LockEffect M) (log : List (ι × Event sig))
    (config : (M → Bool) × (ι → Program sig α)) : Prop where
  /-- A lock is held exactly when a thread holds it. -/
  held_iff : ∀ mutex, config.1 mutex = true ↔ ∃ thread, holding effect log thread = some mutex
  /-- No two threads hold the same lock. -/
  unique : ∀ mutex first second, holding effect log first = some mutex →
    holding effect log second = some mutex → first = second
  /-- A thread that has finished holds none. -/
  finished : ∀ thread value, config.2 thread = .done value → holding effect log thread = none
  /-- As long as a thread has not finished, some thread can go on. -/
  progress : (∃ thread, ∀ value, config.2 thread ≠ .done value) →
    ∃ entry onward, Step (locksWorld effect) config entry onward

/-- An operation that takes no lock that is held may be answered. -/
theorem locksWorld_able {op : sig.Op} (answer : sig.Answer op)
    (able : ∀ mutex, effect op = .acquire mutex → held mutex = false) :
    ∃ after, locksWorld effect held op answer after := by
  unfold locksWorld
  cases does : effect op with
  | unrelated => exact ⟨_, rfl⟩
  | acquire mutex => exact ⟨_, able mutex does, rfl⟩
  | release mutex => exact ⟨_, rfl⟩

/-- A thread goes on with every answer, unless it waits for a lock that is held. -/
theorem step_of_free {config : (M → Bool) × (ι → Program sig α)} {op : sig.Op}
    {next : sig.Answer op → Program sig α}
    (waiting : config.2 thread = .ask op next)
    (free : ∀ mutex, effect op = .acquire mutex → config.1 mutex = false) (answer : sig.Answer op) :
    ∃ after, Step (locksWorld effect) config (thread, ⟨op, answer⟩) after := by
  obtain ⟨after, moves⟩ := locksWorld_able answer free
  exact ⟨_, .act waiting moves⟩

section Balanced

variable [answers : ∀ op, Nonempty (sig.Answer op)] {programs : ι → Program sig α}
  {log : List (ι × Event sig)} {config : (M → Bool) × (ι → Program sig α)}

/-- A thread that holds a lock has a next operation, and does not wait for another lock. -/
theorem Reaches.holder_asks {mutex : M}
    (run : Reaches (locksWorld effect) (fun _ => false, programs) log config)
    (balanced : ∀ thread, LockBalanced effect (programs thread))
    (own : holding effect log thread = some mutex) :
    ∃ op next, config.2 thread = .ask op next ∧ ∀ other, effect op ≠ .acquire other := by
  obtain ⟨phase, shadow, obeyed⟩ := run.shadow balanced
  have running := obeyed thread
  rw [holding, shadow.phase_eq thread] at own
  rw [show phase thread = some mutex from own] at running
  cases onward : config.2 thread with
  | done value =>
    rw [onward] at running
    contradiction
  | ask op next =>
    refine ⟨op, next, rfl, fun other acquires => ?_⟩
    rw [onward] at running
    obtain ⟨answer⟩ := answers op
    obtain ⟨after, accepted, _⟩ := running answer
    simp [oneLock, acquires] at accepted

/-- Balanced programs exclude each other and never wait for each other in a circle. -/
theorem Reaches.locksKept
    (run : Reaches (locksWorld effect) (fun _ => false, programs) log config)
    (balanced : ∀ thread, LockBalanced effect (programs thread)) : LocksKept effect log config := by
  obtain ⟨phase, shadow, obeyed⟩ := run.shadow balanced
  have exclusive : ∀ mutex, Exclusive (· = some mutex) (config.1 mutex) phase :=
    exclusive_of_shadow shadow
  have holds : ∀ thread, holding effect log thread = phase thread := fun thread => by
    rw [holding, shadow.phase_eq thread]
    rfl
  have held_iff : ∀ mutex, config.1 mutex = true ↔
      ∃ thread, holding effect log thread = some mutex := by
    intro mutex
    simp only [holds]
    exact (exclusive mutex).held_iff
  refine ⟨held_iff, fun mutex first second one two => ?_, fun thread value ended => ?_, ?_⟩
  · rw [holds] at one two
    exact (exclusive mutex).unique one two
  · have done := obeyed thread
    rw [ended] at done
    rw [holds]
    exact done
  · rintro ⟨thread, unfinished⟩
    cases waiting : config.2 thread with
    | done value => exact absurd waiting (unfinished value)
    | ask op next =>
      by_cases blocked : ∃ mutex, effect op = .acquire mutex ∧ config.1 mutex = true
      · obtain ⟨mutex, _, taken⟩ := blocked
        obtain ⟨owner, own⟩ := (held_iff mutex).mp taken
        -- the owner does not wait, because it would wait for a second lock
        obtain ⟨op', next', onward, free⟩ := run.holder_asks balanced own
        obtain ⟨answer⟩ := answers op'
        obtain ⟨after, step⟩ := step_of_free onward
          (fun other acquires => absurd acquires (free other)) answer
        exact ⟨_, after, step⟩
      · obtain ⟨answer⟩ := answers op
        obtain ⟨after, step⟩ := step_of_free waiting (fun mutex acquires => by
          by_contra taken
          exact blocked ⟨mutex, acquires, by simpa using taken⟩) answer
        exact ⟨_, after, step⟩

end Balanced

/-! ## Locks of calls -/

/-- A lock that is held after a trace was held before it or is taken in it. -/
theorem acquired_of_after {own : Option M} {trace : List (Event sig)} {mutex : M}
    (holds : (oneLock effect).after own trace = some (some mutex)) :
    own = some mutex ∨ ∃ event ∈ trace, effect event.op = .acquire mutex := by
  induction trace generalizing own with
  | nil => exact .inl (Option.some.inj holds)
  | cons event rest ih =>
    simp only [Monitor.after, Option.bind_eq_some_iff] at holds
    obtain ⟨next, accepted, onward⟩ := holds
    rcases ih onward with rfl | ⟨other, member, acquires⟩
    · -- the first event leaves the lock or takes it
      unfold oneLock at accepted
      cases does : effect event.op with
      | unrelated => exact .inl (by simpa [does] using accepted)
      | release freed => cases own <;> simp [does] at accepted
      | acquire taken =>
        cases own with
        | some other => simp [does] at accepted
        | none =>
          obtain rfl : taken = mutex := by simpa [does] using accepted
          exact .inr ⟨event, List.mem_cons_self, does⟩
    · exact .inr ⟨other, List.mem_cons_of_mem _ member, acquires⟩

/-- A client that holds a lock has taken it in the call that it is in. -/
theorem Serving.guarded {outer : Signature}
    {handler : (call : outer.Op) → Program sig (outer.Answer call)} {guard : outer.Op → M → Prop}
    (balanced : ∀ call, LockBalanced effect (handler call))
    (implemented : ∀ call, (handler call).Asks fun op => ∀ mutex, effect op = .acquire mutex →
      guard call mutex)
    {client : Program outer α} {past : List (Event outer)} {call : outer.Op}
    {trace : List (Event sig)} {op : sig.Op} {mutex : M}
    (serving : Serving handler client past call trace op)
    (holds : (oneLock effect).after none trace = some (some mutex)) : guard call mutex := by
  induction serving with
  | first begun =>
    rcases acquired_of_after holds with none | ⟨event, member, acquires⟩
    · contradiction
    · exact (begun.asks (implemented _)).1 event member mutex acquires
  | later returned _ ih =>
    obtain ⟨final, reached, free⟩ := (balanced _).runs returned
    rw [Monitor.after_append, reached, Option.bind_some, free] at holds
    exact ih holds

end Interaction
