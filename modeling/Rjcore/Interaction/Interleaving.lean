import Mathlib.Logic.Function.Basic
import Rjcore.Interaction.Program

/-!
# Interleavings of programs in one world

Any number of threads each run a program; one step performs the next operation of one
thread in the shared world. A monitor summarizes what a thread has done by a phase. When
every program obeys its monitor, each reachable pool of programs is shadowed by a pool of
phases that took the same steps (`Reaches.shadow`), so an invariant of the phases and the
world is an invariant of the programs. The phases are also a function of the log alone
(`Shadow.phase_eq`), which lets statements name them without mentioning the shadow.
-/

namespace Interaction

variable {sig : Signature} {α β S W : Type}

/-- A monitor moves between phases on events and refuses the events it does not expect. -/
abbrev Monitor (sig : Signature) (S : Type) : Type := S → (op : sig.Op) → sig.Answer op → Option S

/-- The phase after a trace, when no event of it is refused. -/
def Monitor.after (monitor : Monitor sig S) : S → List (Event sig) → Option S
  | phase, [] => some phase
  | phase, event :: rest =>
    (monitor phase event.op event.answer).bind fun next => Monitor.after monitor next rest

/-- Reading a second trace continues from the phase of the first one. -/
theorem Monitor.after_append {monitor : Monitor sig S} (start : S)
    (first second : List (Event sig)) :
    monitor.after start (first ++ second) =
      (monitor.after start first).bind fun phase => monitor.after phase second := by
  induction first generalizing start with
  | nil => rfl
  | cons event rest ih =>
    simp only [List.cons_append, Monitor.after, Option.bind_assoc]
    exact congrArg _ (funext ih)

/-- Reading one more event continues from the phase of the earlier ones. -/
theorem Monitor.after_concat {monitor : Monitor sig S} {start phase next : S}
    {trace : List (Event sig)} {event : Event sig}
    (before : monitor.after start trace = some phase)
    (moves : monitor phase event.op event.answer = some next) :
    monitor.after start (trace ++ [event]) = some next := by
  rw [Monitor.after_append, before, Option.bind_some, Monitor.after, moves]
  rfl

namespace Program

/-- Every event of every run is accepted, and the last phase and value satisfy `post`. -/
def Obeys (monitor : Monitor sig S) : Program sig α → S → (S → α → Prop) → Prop
  | .done value, phase, post => post phase value
  | .ask op next, phase, post => ∀ answer, ∃ after, monitor phase op answer = some after ∧
    (next answer).Obeys monitor after post

/-- A sequence obeys a monitor piece by piece. -/
theorem Obeys.bind {monitor : Monitor sig S} {program : Program sig α}
    {next : α → Program sig β} {phase : S} {middle : S → α → Prop} {post : S → β → Prop}
    (first : program.Obeys monitor phase middle)
    (second : ∀ after value, middle after value → (next value).Obeys monitor after post) :
    (program >>= next).Obeys monitor phase post := by
  induction program generalizing phase with
  | done value => exact second phase value first
  | ask op rest ih =>
    intro answer
    obtain ⟨after, accepted, obeys⟩ := first answer
    exact ⟨after, accepted, ih answer obeys⟩

/-- A run of a program that obeys ends in a phase of the postcondition. -/
theorem Obeys.runs {monitor : Monitor sig S} {program : Program sig α} {phase : S}
    {post : S → α → Prop} {trace : List (Event sig)} {value : α}
    (obeys : program.Obeys monitor phase post) (run : program.Runs trace value) :
    ∃ final, monitor.after phase trace = some final ∧ post final value := by
  induction run generalizing phase with
  | done value => exact ⟨phase, rfl, obeys⟩
  | ask answer rest ih =>
    obtain ⟨next, accepted, later⟩ := obeys answer
    obtain ⟨final, reached, holds⟩ := ih later
    exact ⟨final, by rw [Monitor.after, accepted, Option.bind_some, reached], holds⟩

end Program

variable {ι : Type} [DecidableEq ι]

/-- One thread performs its next operation in the shared world. -/
inductive Step (world : World sig W) :
    W × (ι → Program sig α) → ι × Event sig → W × (ι → Program sig α) → Prop
  | act {state after : W} {pool : ι → Program sig α} {thread : ι} {op : sig.Op}
      {next : sig.Answer op → Program sig α} {answer : sig.Answer op}
      (waiting : pool thread = .ask op next) (moves : world state op answer after) :
      Step world (state, pool) (thread, ⟨op, answer⟩)
        (after, Function.update pool thread (next answer))

/-- The configurations some interleaving reaches, with the log of its steps. -/
inductive Reaches (world : World sig W) (start : W × (ι → Program sig α)) :
    List (ι × Event sig) → W × (ι → Program sig α) → Prop
  | start : Reaches world start [] start
  | step {log : List (ι × Event sig)} {config after : W × (ι → Program sig α)}
      {entry : ι × Event sig} (earlier : Reaches world start log config)
      (last : Step world config entry after) : Reaches world start (log ++ [entry]) after

/-- The events of one thread in a log. -/
def ownTrace (thread : ι) (log : List (ι × Event sig)) : List (Event sig) :=
  (log.filter fun entry => entry.1 = thread).map Prod.snd

/-- An entry of the thread itself extends its own trace. -/
theorem ownTrace_concat_self (thread : ι) (log : List (ι × Event sig)) (event : Event sig) :
    ownTrace thread (log ++ [(thread, event)]) = ownTrace thread log ++ [event] := by
  simp [ownTrace]

/-- An entry of another thread leaves the own trace alone. -/
theorem ownTrace_concat_other {thread other : ι} (different : other ≠ thread)
    (log : List (ι × Event sig)) (event : Event sig) :
    ownTrace thread (log ++ [(other, event)]) = ownTrace thread log := by
  simp [ownTrace, different]

/-- The first event of a thread splits the log. -/
theorem ownTrace_cons {thread : ι} {log : List (ι × Event sig)} {first : Event sig}
    {rest : List (Event sig)} (own : ownTrace thread log = first :: rest) :
    ∃ before after, log = before ++ (thread, first) :: after ∧ ownTrace thread after = rest := by
  induction log with
  | nil => contradiction
  | cons entry log ih =>
    obtain ⟨mover, event⟩ := entry
    by_cases same : mover = thread
    · subst same
      simp only [ownTrace, List.filter_cons, decide_true, ↓reduceIte, List.map_cons,
        List.cons.injEq] at own
      obtain ⟨rfl, own⟩ := own
      exact ⟨[], log, rfl, own⟩
    · simp only [ownTrace, List.filter_cons, same, decide_false, Bool.false_eq_true,
        ↓reduceIte] at own
      obtain ⟨before, after, rfl, onward⟩ := ih own
      exact ⟨(mover, event) :: before, after, rfl, onward⟩

/-- What a thread has done is the beginning of each of its runs. -/
theorem Reaches.runs {world : World sig W} {start config : W × (ι → Program sig α)}
    {log : List (ι × Event sig)} (run : Reaches world start log config) {thread : ι}
    {trace : List (Event sig)} {value : α} (onward : (config.2 thread).Runs trace value) :
    (start.2 thread).Runs (ownTrace thread log ++ trace) value := by
  induction run generalizing trace with
  | start => exact onward
  | step earlier last ih =>
    cases last with
    | @act state after pool mover op next answer waiting moves =>
      by_cases same : thread = mover
      · subst same
        rw [ownTrace_concat_self, List.append_assoc]
        simp only [Function.update_self] at onward
        exact ih (by simpa only [waiting] using .ask answer onward)
      · rw [ownTrace_concat_other (Ne.symm same)]
        simp only [Function.update_of_ne same] at onward
        exact ih onward

/-- A run splits at every point of its log. -/
theorem Reaches.split {world : World sig W} {start config : W × (ι → Program sig α)}
    {first rest : List (ι × Event sig)} (run : Reaches world start (first ++ rest) config) :
    ∃ middle, Reaches world start first middle ∧ Reaches world middle rest config := by
  generalize whole : first ++ rest = log at run
  induction run generalizing rest with
  | start =>
    obtain ⟨rfl, rfl⟩ := List.append_eq_nil_iff.mp whole
    exact ⟨start, .start, .start⟩
  | @step log before after last earlier moves ih =>
    rcases List.eq_nil_or_concat rest with rfl | ⟨front, final, rfl⟩
    · rw [List.append_nil] at whole
      subst whole
      exact ⟨after, .step earlier moves, .start⟩
    · rw [List.concat_eq_append, ← List.append_assoc] at whole
      obtain ⟨same, final_eq⟩ := List.append_inj' whole rfl
      cases final_eq
      obtain ⟨middle, reached, onward⟩ := ih same
      exact ⟨middle, reached, by simpa using onward.step moves⟩

/-- The last entry of a log was a step. -/
theorem Reaches.last_step {world : World sig W} {start config : W × (ι → Program sig α)}
    {log : List (ι × Event sig)} {entry : ι × Event sig}
    (run : Reaches world start (log ++ [entry]) config) :
    ∃ earlier, Reaches world start log earlier ∧ Step world earlier entry config := by
  generalize whole : log ++ [entry] = entries at run
  cases run with
  | start => simp at whole
  | @step before earlier _ last reached moves =>
    obtain ⟨rfl, same⟩ := List.append_inj' whole rfl
    cases same
    exact ⟨earlier, reached, moves⟩

/-- The same steps with every thread reduced to the phase of its monitor. -/
inductive Shadow (world : World sig W) (monitor : ι → Monitor sig S) (start : W × (ι → S)) :
    List (ι × Event sig) → W × (ι → S) → Prop
  | start : Shadow world monitor start [] start
  | step {log : List (ι × Event sig)} {state after : W} {phase : ι → S} {next : S} {thread : ι}
      {event : Event sig} (earlier : Shadow world monitor start log (state, phase))
      (moves : world state event.op event.answer after)
      (accepted : monitor thread (phase thread) event.op event.answer = some next) :
      Shadow world monitor start (log ++ [(thread, event)])
        (after, Function.update phase thread next)

section Shadow

variable {world : World sig W} {monitor : ι → Monitor sig S}

/-- Programs that obey their monitors are shadowed by phases, step for step. -/
theorem Reaches.shadow {start config : W × (ι → Program sig α)} {initial : ι → S}
    {post : ι → S → α → Prop} {log : List (ι × Event sig)}
    (obeys : ∀ thread, (start.2 thread).Obeys (monitor thread) (initial thread) (post thread))
    (run : Reaches world start log config) :
    ∃ phase, Shadow world monitor (start.1, initial) log (config.1, phase) ∧
      ∀ thread, (config.2 thread).Obeys (monitor thread) (phase thread) (post thread) := by
  induction run with
  | start => exact ⟨initial, .start, obeys⟩
  | step earlier last ih =>
    obtain ⟨phase, shadow, obeyed⟩ := ih
    cases last with
    | @act state after pool thread op next answer waiting moves =>
      have current := obeyed thread
      simp only [waiting, Program.Obeys] at current
      obtain ⟨entered, accepted, onward⟩ := current answer
      refine ⟨Function.update phase thread entered, .step shadow moves accepted, fun other => ?_⟩
      by_cases same : other = thread
      · subst same
        simpa only [Function.update_self] using onward
      · simpa only [Function.update_of_ne same] using obeyed other

/-- The phase of a thread is determined by its own events in the log. -/
theorem Shadow.phase_eq {start : W × (ι → S)} {log : List (ι × Event sig)} {final : W × (ι → S)}
    (shadow : Shadow world monitor start log final) (thread : ι) :
    (monitor thread).after (start.2 thread) (ownTrace thread log) = some (final.2 thread) := by
  induction shadow with
  | start => rfl
  | @step log state after phase next mover event earlier moves accepted ih =>
    change _ = some (Function.update phase mover next thread)
    by_cases same : thread = mover
    · subst same
      rw [ownTrace_concat_self, Function.update_self]
      exact Monitor.after_concat ih accepted
    · rw [ownTrace_concat_other (Ne.symm same), Function.update_of_ne same]
      exact ih

end Shadow

/-- One thread takes a turn, the world answering by a function. -/
def turn (respond : W → (op : sig.Op) → sig.Answer op × W) (thread : ι)
    (config : W × (ι → Program sig α)) : Option ((ι × Event sig) × (W × (ι → Program sig α))) :=
  match config.2 thread with
  | .done _ => none
  | .ask op next =>
    let answered := respond config.1 op
    some ((thread, ⟨op, answered.1⟩),
      (answered.2, Function.update config.2 thread (next answered.1)))

/-- Give the threads of a schedule one turn each. -/
def play (respond : W → (op : sig.Op) → sig.Answer op × W) :
    List ι → List (ι × Event sig) → W × (ι → Program sig α) →
      Option (List (ι × Event sig) × (W × (ι → Program sig α)))
  | [], log, config => some (log, config)
  | thread :: schedule, log, config =>
    match turn respond thread config with
    | none => none
    | some (entry, after) => play respond schedule (log ++ [entry]) after

/-- Every turn of a schedule finds the world able to give its response. -/
def playable (able : W → sig.Op → Bool) (respond : W → (op : sig.Op) → sig.Answer op × W) :
    List ι → W × (ι → Program sig α) → Bool
  | [], _ => true
  | thread :: schedule, config =>
    match config.2 thread with
    | .done _ => true
    | .ask op next =>
      let answered := respond config.1 op
      able config.1 op && playable able respond schedule
        (answered.2, Function.update config.2 thread (next answered.1))

/-- A played schedule is an interleaving of every world that allows the responses it is able
to give. -/
theorem play_reaches_able {world : World sig W} {able : W → sig.Op → Bool}
    {respond : W → (op : sig.Op) → sig.Answer op × W}
    (allowed : ∀ state op, able state op = true →
      world state op (respond state op).1 (respond state op).2)
    {start : W × (ι → Program sig α)} (schedule : List ι) :
    ∀ {log played : List (ι × Event sig)} {config final : W × (ι → Program sig α)},
      Reaches world start log config → playable able respond schedule config = true →
        play respond schedule log config = some (played, final) →
          Reaches world start played final := by
  induction schedule with
  | nil =>
    intro log played config final earlier _ result
    cases result
    exact earlier
  | cons thread schedule ih =>
    intro log played config final earlier possible result
    obtain ⟨state, pool⟩ := config
    cases waiting : pool thread with
    | done value => simp [play, turn, waiting] at result
    | ask op next =>
      simp only [play, turn, waiting] at result
      simp only [playable, waiting, Bool.and_eq_true] at possible
      exact ih (.step earlier (.act waiting (allowed state op possible.1))) possible.2 result

/-- A played schedule is an interleaving of every world that allows the responses. -/
theorem play_reaches {world : World sig W} {respond : W → (op : sig.Op) → sig.Answer op × W}
    (allowed : ∀ state op, world state op (respond state op).1 (respond state op).2)
    {start : W × (ι → Program sig α)} (schedule : List ι)
    {log played : List (ι × Event sig)} {config final : W × (ι → Program sig α)}
    (earlier : Reaches world start log config)
    (result : play respond schedule log config = some (played, final)) :
    Reaches world start played final := by
  have possible : ∀ (schedule : List ι) (config : W × (ι → Program sig α)),
      playable (fun _ _ => true) respond schedule config = true := by
    intro schedule
    induction schedule with
    | nil => exact fun _ => rfl
    | cons thread schedule ih =>
      intro config
      unfold playable
      split
      · rfl
      · exact ih _
  exact play_reaches_able (fun state op _ => allowed state op) schedule earlier
    (possible schedule config) result

/-- An interleaving is one of a narrower world that allows all its steps. -/
theorem Reaches.narrow {world narrow : World sig W} {start config : W × (ι → Program sig α)}
    {log : List (ι × Event sig)} (run : Reaches world start log config)
    (allowed : ∀ entry ∈ log, ∀ state after,
      world state entry.2.op entry.2.answer after → narrow state entry.2.op entry.2.answer after) :
    Reaches narrow start log config := by
  induction run with
  | start => exact .start
  | @step log config after entry earlier last ih =>
    have before := ih fun other member => allowed other (List.mem_append_left _ member)
    have own := allowed entry (List.mem_append_right _ (List.mem_singleton.mpr rfl))
    cases last with
    | act waiting moves => exact .step before (.act waiting (own _ _ moves))

/-- A trace is one of a world that simulates each of its steps. -/
theorem Follows.simulate {V : Type} {world : World sig W} {abstract : World sig V} (view : W → V)
    (simulated : ∀ state op answer after, world state op answer after →
      abstract (view state) op answer (view after))
    {start final : W} {steps : List (W × Event sig)} (follows : Follows world start steps final) :
    Follows abstract (view start) (steps.map fun step => (view step.1, step.2)) (view final) := by
  induction follows with
  | nil state => exact .nil (view state)
  | cons moves _ ih => exact .cons (simulated _ _ _ _ moves) ih

/-- What every step keeps holds in the end, and an interleaving is one of a world that simulates
each step where it holds. -/
theorem Reaches.simulate {V : Type} {world : World sig W} {abstract : World sig V}
    {start config : W × (ι → Program sig α)} {log : List (ι × Event sig)}
    (run : Reaches world start log config) (view : W → V) (invariant : W → Prop)
    (initially : invariant start.1)
    (simulated : ∀ state op answer after, invariant state → world state op answer after →
      invariant after ∧ abstract (view state) op answer (view after)) :
    invariant config.1 ∧ Reaches abstract (view start.1, start.2) log (view config.1, config.2) := by
  induction run with
  | start => exact ⟨initially, .start⟩
  | step earlier last ih =>
    cases last with
    | act waiting moves =>
      obtain ⟨kept, moved⟩ := simulated _ _ _ _ ih.1 moves
      exact ⟨kept, .step ih.2 (.act waiting moved)⟩

end Interaction
