import Rjcore.Interaction.Handler
import Rjcore.Interaction.Interleaving

/-!
# Atomic sections

A handler whose implementations each run in one section that a lock guards. Threads that use
such a handler interleave operation by operation, but no thread acts while another one is in
its section. So every interleaving stands for a serial run in which each section is a single
step: the sections follow each other in the order in which they are left, and one that is
refused has no effect at all.
-/

namespace Interaction

/-- What an event does to a section. -/
inductive SectionEvent
  | enters
  | refused
  | inside
  | leaves
  deriving DecidableEq

/-- Where a program is with respect to its section. -/
inductive SectionPhase
  | before
  | inside
  | over
  deriving DecidableEq

variable {sig outer : Signature} {α ι W : Type}

/-- A program enters its section first, is refused or leaves it, and does nothing more. -/
def oneSection (kind : (op : sig.Op) → sig.Answer op → SectionEvent) : Monitor sig SectionPhase :=
  fun phase op answer => match phase, kind op answer with
    | .before, .enters => some .inside
    | .before, .refused => some .over
    | .inside, .inside => some .inside
    | .inside, .leaves => some .over
    | _, _ => none

/-- What an event does to the phase of a section. -/
inductive SectionTurn : SectionEvent → SectionPhase → SectionPhase → Prop
  | enters : SectionTurn .enters .before .inside
  | refused : SectionTurn .refused .before .over
  | inside : SectionTurn .inside .inside .inside
  | leaves : SectionTurn .leaves .inside .over

/-- A program that is one section from its beginning to its end. -/
def Sectioned (kind : (op : sig.Op) → sig.Answer op → SectionEvent) (program : Program sig α) :
    Prop :=
  program.Obeys (oneSection kind) .before fun phase _ => phase = .over

/-- The section is entered only while the lock is free, and being refused has no effect. -/
structure Guards (kind : (op : sig.Op) → sig.Answer op → SectionEvent) (world : World sig W)
    (held : W → Bool) : Prop where
  /-- The lock was free, and is held. -/
  enters : ∀ {state op answer after}, kind op answer = .enters → world state op answer after →
    held state = false ∧ held after = true
  /-- Nothing changes, and the refusal may come at any time. -/
  refused : ∀ {state op answer after}, kind op answer = .refused → world state op answer after →
    after = state ∧ ∀ other, world other op answer other
  /-- The lock stays as it is. -/
  inside : ∀ {state op answer after}, kind op answer = .inside → world state op answer after →
    held after = held state
  /-- The lock is free. -/
  leaves : ∀ {state op answer after}, kind op answer = .leaves → world state op answer after →
    held after = false

/-- A world in which every operation is a whole run of its implementation. -/
def atomically (world : World sig W) (handler : (op : outer.Op) → Program sig (outer.Answer op)) :
    World outer W :=
  fun state op answer after => ∃ steps,
    (handler op).Runs (steps.map Prod.snd) answer ∧ Follows world state steps after

/-- The thread is through with its section. -/
def closing (kind : (op : sig.Op) → sig.Answer op → SectionEvent) (entry : ι × Event sig) : Bool :=
  kind entry.2.op entry.2.answer = .refused || kind entry.2.op entry.2.answer = .leaves

variable {kind : (op : sig.Op) → sig.Answer op → SectionEvent} {world : World sig W}
  {held : W → Bool} {handler : (op : outer.Op) → Program sig (outer.Answer op)}

/-- Every event of a program that is one section is such a turn. -/
theorem turn_of_oneSection {phase next : SectionPhase} {op : sig.Op} {answer : sig.Answer op}
    (accepted : oneSection kind phase op answer = some next) :
    SectionTurn (kind op answer) phase next := by
  unfold oneSection at accepted
  generalize kind op answer = event at accepted ⊢
  split at accepted <;> cases accepted
  · exact .enters
  · exact .refused
  · exact .inside
  · exact .leaves

/-- A program that is through with its section has finished. -/
theorem finished_of_over [answers : ∀ op, Nonempty (sig.Answer op)] {program : Program sig α}
    {post : SectionPhase → α → Prop} (through : program.Obeys (oneSection kind) .over post) :
    ∃ value, program = .done value := by
  cases program with
  | done value => exact ⟨value, rfl⟩
  | ask op next =>
    obtain ⟨answer⟩ := answers op
    obtain ⟨after, accepted, _⟩ := through answer
    have turn := turn_of_oneSection accepted
    generalize kind op answer = event at turn
    cases turn

/-- A program that has to leave its section has not finished. -/
theorem asks_of_inside {program : Program sig α} {phase : SectionPhase} (early : phase ≠ .over)
    (obeys : program.Obeys (oneSection kind) phase fun phase _ => phase = .over) :
    ∃ op next, program = .ask op next := by
  cases program with
  | done value => exact absurd obeys early
  | ask op next => exact ⟨op, next, rfl⟩

/-- A client outside of its sections is about to enter one: it enters it or is refused. -/
theorem first_event [∀ op, Nonempty (sig.Answer op)] {program : Program outer α} {op : sig.Op}
    {next : sig.Answer op → Program sig α}
    (sectioned : program.Asks fun call => Sectioned kind (handler call))
    (first : program.through handler = .ask op next) (answer : sig.Answer op) :
    ∃ call onward rest, program = .ask call onward ∧
      next answer = rest >>= (fun value => (onward value).through handler) ∧
      (∀ trace value, rest.Runs trace value →
        (handler call).Runs (⟨op, answer⟩ :: trace) value) ∧
      (kind op answer = .enters ∧
          rest.Obeys (oneSection kind) .inside (fun phase _ => phase = .over) ∨
        kind op answer = .refused ∧ ∃ value, rest = .done value) := by
  cases program with
  | done value => contradiction
  | ask call onward =>
    have obeys := sectioned.1
    obtain ⟨op', rest, implemented⟩ := asks_of_inside (by decide) obeys
    rw [Program.through_ask, implemented, Program.ask_bind] at first
    injection first with same continued
    subst same
    cases continued
    refine ⟨call, onward, rest answer, rfl, rfl, fun trace value run => ?_, ?_⟩
    · rw [implemented]
      exact .ask answer run
    · rw [Sectioned, implemented] at obeys
      obtain ⟨phase, accepted, later⟩ := obeys answer
      have turn := turn_of_oneSection accepted
      generalize kind op' answer = event at turn ⊢
      cases turn with
      | enters => exact .inl ⟨rfl, later⟩
      | refused => exact .inr ⟨rfl, finished_of_over later⟩

/-- A program in its section stays in it or leaves it. -/
theorem next_event [∀ op, Nonempty (sig.Answer op)] {program : Program sig α} {op : sig.Op}
    {next : sig.Answer op → Program sig α}
    (inside : program.Obeys (oneSection kind) .inside fun phase _ => phase = .over)
    (asks : program = .ask op next) (answer : sig.Answer op) :
    kind op answer = .inside ∧
        (next answer).Obeys (oneSection kind) .inside (fun phase _ => phase = .over) ∨
      kind op answer = .leaves ∧ ∃ value, next answer = .done value := by
  rw [asks] at inside
  obtain ⟨phase, accepted, later⟩ := inside answer
  have turn := turn_of_oneSection accepted
  generalize kind op answer = event at turn ⊢
  cases turn with
  | inside => exact .inl ⟨rfl, later⟩
  | leaves => exact .inr ⟨rfl, finished_of_over later⟩

/-- A client has finished exactly when its implementation has. -/
theorem through_finished_iff {program : Program outer α} {value : α}
    (sectioned : program.Asks fun call => Sectioned kind (handler call)) :
    program.through handler = .done value ↔ program = .done value := by
  cases program with
  | done other => simp
  | ask call onward =>
    obtain ⟨op, rest, implemented⟩ := asks_of_inside (by decide) sectioned.1
    simp [implemented]

/-- A configuration of an interleaving, and the serial configuration it stands for. -/
inductive Stands (kind : (op : sig.Op) → sig.Answer op → SectionEvent) (world : World sig W)
    (held : W → Bool) (handler : (op : outer.Op) → Program sig (outer.Answer op)) :
    W × (ι → Program sig α) → W × (ι → Program outer α) → Prop
  /-- No thread is in its section. -/
  | idle {state : W} {fine : ι → Program sig α} {pool : ι → Program outer α}
      (free : held state = false) (same : ∀ thread, fine thread = (pool thread).through handler) :
      Stands kind world held handler (state, fine) (state, pool)
  /-- One thread is in its section, and has done some steps of it. -/
  | busy {state now : W} {fine : ι → Program sig α} {pool : ι → Program outer α} {owner : ι}
      {call : outer.Op} {onward : outer.Answer call → Program outer α}
      {rest : Program sig (outer.Answer call)} {steps : List (W × Event sig)}
      (taken : held now = true) (waiting : pool owner = .ask call onward)
      (own : fine owner = rest >>= fun value => (onward value).through handler)
      (others : ∀ thread, thread ≠ owner → fine thread = (pool thread).through handler)
      (inside : rest.Obeys (oneSection kind) .inside fun phase _ => phase = .over)
      (follows : Follows world state steps now)
      (runs : ∀ trace value, rest.Runs trace value →
        (handler call).Runs (steps.map Prod.snd ++ trace) value) :
      Stands kind world held handler (now, fine) (state, pool)

namespace Stands

/-- The configurations agree on who has finished with what result. -/
theorem finished_iff {config : W × (ι → Program sig α)} {serial : W × (ι → Program outer α)}
    (stands : Stands kind world held handler config serial)
    (sectioned : ∀ thread, (serial.2 thread).Asks fun call => Sectioned kind (handler call))
    (thread : ι) (value : α) : config.2 thread = .done value ↔ serial.2 thread = .done value := by
  cases stands with
  | idle free same =>
    simp only [same]
    exact through_finished_iff (sectioned thread)
  | @busy state now fine pool owner call onward rest steps taken waiting own others inside =>
    by_cases mine : thread = owner
    · subst mine
      obtain ⟨op, next, asks⟩ := asks_of_inside (by decide) inside
      simp [own, waiting, asks]
    · simp only [others thread mine]
      exact through_finished_iff (sectioned thread)

/-- While the lock is free the states are the same. -/
theorem settled {config : W × (ι → Program sig α)} {serial : W × (ι → Program outer α)}
    (stands : Stands kind world held handler config serial) (free : held config.1 = false) :
    config.1 = serial.1 := by
  cases stands with
  | idle => rfl
  | busy taken => exact absurd taken (by simp [show held _ = false from free])

/-- While the lock is free every thread is where the serial run has left it. -/
theorem threads_settled {config : W × (ι → Program sig α)} {serial : W × (ι → Program outer α)}
    (stands : Stands kind world held handler config serial) (free : held config.1 = false)
    (thread : ι) : config.2 thread = (serial.2 thread).through handler := by
  cases stands with
  | idle _ same => exact same thread
  | busy taken => exact absurd taken (by simp [show held _ = false from free])

end Stands

variable [DecidableEq ι]

/-- The lock is held while a program is in its section, and free in the end. -/
theorem Follows.free (guards : Guards kind world held) {program : Program sig α}
    {phase : SectionPhase} {value : α} {state after : W} {steps : List (W × Event sig)}
    (follows : Follows world state steps after)
    (obeys : program.Obeys (oneSection kind) phase fun phase _ => phase = .over)
    (runs : program.Runs (steps.map Prod.snd) value) (same : held state = true ↔ phase = .inside) :
    held after = false := by
  induction follows generalizing phase program with
  | nil state =>
    cases runs
    rw [show phase = .over from obeys] at same
    simpa using same
  | @cons state middle final event rest moves _ ih =>
    obtain ⟨op, answer⟩ := event
    cases runs with
    | ask _ runs =>
      obtain ⟨next, accepted, later⟩ := obeys answer
      refine ih later runs ?_
      have turn := turn_of_oneSection accepted
      generalize does : kind op answer = event at turn
      cases turn with
      | enters => simp [(guards.enters does moves).2]
      | refused =>
        rw [(guards.refused does moves).1]
        simpa using same
      | inside =>
        rw [guards.inside does moves]
        exact same
      | leaves => simp [guards.leaves does moves]

/-- A whole section begins and ends with the lock free. -/
theorem atomically_free (guards : Guards kind world held) {state after : W} {call : outer.Op}
    {answer : outer.Answer call} (sectioned : Sectioned kind (handler call))
    (step : atomically world handler state call answer after) (free : held state = false) :
    held after = false := by
  obtain ⟨steps, runs, follows⟩ := step
  exact follows.free guards sectioned runs (by simp [free])

/-- A program that leaves the lock alone stays in the section. -/
theorem obeys_inside {program : Program sig α}
    (asks : program.Asks fun op => ∀ answer, kind op answer = .inside) :
    program.Obeys (oneSection kind) .inside fun phase _ => phase = .inside := by
  induction program with
  | done value => rfl
  | ask op next ih =>
    obtain ⟨here, later⟩ := asks
    exact fun answer => ⟨.inside, by simp only [oneSection, here], ih answer (later answer)⟩

/-- What the serial run does at a step of the interleaving: a whole section when the thread is
through with it, and nothing otherwise. -/
def Serially (kind : (op : sig.Op) → sig.Answer op → SectionEvent) (world : World sig W)
    (handler : (op : outer.Op) → Program sig (outer.Answer op)) (entry : ι × Event sig)
    (serial onward : W × (ι → Program outer α)) : Prop :=
  if closing kind entry then
    ∃ event, Step (atomically world handler) serial (entry.1, event) onward
  else onward = serial

/-- Threads that move on together still agree. -/
theorem agree_update {fine : ι → Program sig α} {pool : ι → Program outer α} {some : ι → Prop}
    (agree : ∀ thread, some thread → fine thread = (pool thread).through handler) (mover : ι)
    (next : Program outer α) (thread : ι) (counted : some thread) :
    Function.update fine mover (next.through handler) thread =
      (Function.update pool mover next thread).through handler := by
  by_cases same : thread = mover
  · subst same
    rw [Function.update_self, Function.update_self]
  · rw [Function.update_of_ne same, Function.update_of_ne same]
    exact agree thread counted

/-- A whole run of a section is one step of the serial run. -/
theorem serially_closed {state after : W} {pool : ι → Program outer α} {thread : ι}
    {event : Event sig} {call : outer.Op} {onward : outer.Answer call → Program outer α}
    {steps : List (W × Event sig)} {value : outer.Answer call}
    (closes : closing kind (thread, event) = true) (waiting : pool thread = .ask call onward)
    (runs : (handler call).Runs (steps.map Prod.snd) value) (follows : Follows world state steps after) :
    Serially kind world handler (thread, event) (state, pool)
      (after, Function.update pool thread (onward value)) := by
  rw [Serially, if_pos closes]
  exact ⟨_, .act waiting ⟨steps, runs, follows⟩⟩

/-- A call that is refused is one step of the serial run, in any state. -/
theorem serially_refused (guards : Guards kind world held) {now after state : W}
    {pool : ι → Program outer α} {thread : ι} {op : sig.Op} {answer : sig.Answer op}
    {call : outer.Op} {onward : outer.Answer call → Program outer α} {value : outer.Answer call}
    (refuses : kind op answer = .refused) (moves : world now op answer after)
    (waiting : pool thread = .ask call onward) (runs : (handler call).Runs [⟨op, answer⟩] value) :
    Serially kind world handler (thread, ⟨op, answer⟩) (state, pool)
      (state, Function.update pool thread (onward value)) := by
  have step : atomically world handler state call value state :=
    ⟨[(state, ⟨op, answer⟩)], runs, .cons ((guards.refused refuses moves).2 state) (.nil state)⟩
  rw [Serially, if_pos (by simp [closing, refuses])]
  exact ⟨_, .act waiting step⟩

/-- Every step of an interleaving leads to one that stands for the serial run. -/
theorem Stands.step [∀ op, Nonempty (sig.Answer op)] (guards : Guards kind world held)
    {config after : W × (ι → Program sig α)} {serial : W × (ι → Program outer α)}
    {entry : ι × Event sig} (stands : Stands kind world held handler config serial)
    (sectioned : ∀ thread, (serial.2 thread).Asks fun call => Sectioned kind (handler call))
    (step : Step world config entry after) :
    ∃ onward, Serially kind world handler entry serial onward ∧
      Stands kind world held handler after onward := by
  obtain @⟨now, after, fine, thread, op, next, answer, asks, moves⟩ := step
  cases stands with
  | @idle _ _ pool free same =>
    have first := same thread
    rw [asks] at first
    obtain ⟨call, onward, rest, waiting, own, runs, event⟩ :=
      first_event (sectioned thread) first.symm answer
    rcases event with ⟨enters, inside⟩ | ⟨refuses, value, rfl⟩
    · refine ⟨(now, pool), by simp [Serially, closing, enters], ?_⟩
      refine .busy (guards.enters enters moves).2 waiting ?_ (fun other different => ?_) inside
        (.cons moves (.nil _)) runs
      · rw [Function.update_self, own]
      · rw [Function.update_of_ne different]
        exact same other
    · have refused := runs [] value (.done value)
      refine ⟨_, serially_refused guards refuses moves waiting refused, ?_⟩
      rw [(guards.refused refuses moves).1, own]
      exact .idle free fun other =>
        agree_update (fun each (_ : True) => same each) thread _ other trivial
  | @busy state _ _ pool owner call onward rest steps taken waiting own others inside follows runs =>
    by_cases mine : thread = owner
    · subst mine
      rw [asks] at own
      obtain ⟨op', next', asks'⟩ := asks_of_inside (by decide) inside
      rw [asks', Program.ask_bind] at own
      injection own with same continued
      subst same
      cases continued
      have trace : ∀ trace value, (next' answer).Runs trace value → (handler call).Runs
          ((steps ++ [(now, (⟨op, answer⟩ : Event sig))]).map Prod.snd ++ trace) value := by
        intro trace value run
        have whole := runs (⟨op, answer⟩ :: trace) value (asks' ▸ .ask answer run)
        rwa [List.map_append, List.append_assoc]
      have further : Follows world state (steps ++ [(now, ⟨op, answer⟩)]) after :=
        follows.append (.cons moves (.nil after))
      rcases next_event inside asks' answer with ⟨stays, inside⟩ | ⟨leaves, value, finished⟩
      · refine ⟨(state, pool), by simp [Serially, closing, stays], ?_⟩
        refine .busy ?_ waiting (Function.update_self ..) (fun other different => ?_) inside
          further trace
        · rw [guards.inside stays moves, taken]
        · rw [Function.update_of_ne different]
          exact others other different
      · have whole := trace [] value (finished ▸ .done value)
        rw [List.append_nil] at whole
        refine ⟨_, serially_closed (by simp [closing, leaves]) waiting whole further, ?_⟩
        refine .idle (guards.leaves leaves moves) fun other => ?_
        simp only [finished, Program.done_bind]
        by_cases same : other = thread
        · subst same
          rw [Function.update_self, Function.update_self]
        · exact agree_update others thread _ other same
    · have first := others thread mine
      rw [asks] at first
      obtain ⟨call', onward', rest', waiting', own', runs', event⟩ :=
        first_event (sectioned thread) first.symm answer
      rcases event with ⟨enters, _⟩ | ⟨refuses, value, rfl⟩
      · exact absurd (guards.enters enters moves).1 (by simp [taken])
      · have refused := runs' [] value (.done value)
        refine ⟨_, serially_refused guards refuses moves waiting' refused, ?_⟩
        rw [(guards.refused refuses moves).1, own']
        rw [← Function.update_of_ne (Ne.symm mine) (onward' value) pool] at waiting
        rw [← Function.update_of_ne (Ne.symm mine) (.done value >>= _) fine] at own
        exact .busy taken waiting own (fun other different =>
          agree_update others thread _ other different) inside follows runs

/-- Every interleaving of sections is a serial run of them, in the order in which the threads are
through with them. -/
theorem Reaches.serial [∀ op, Nonempty (sig.Answer op)] (guards : Guards kind world held)
    {start : W} {clients : ι → Program outer α} {log : List (ι × Event sig)}
    {config : W × (ι → Program sig α)}
    (run : Reaches world (start, fun client => (clients client).through handler) log config)
    (free : held start = false)
    (sectioned : ∀ client, (clients client).Asks fun call => Sectioned kind (handler call)) :
    ∃ serialLog serial, Reaches (atomically world handler) (start, clients) serialLog serial ∧
      serialLog.map Prod.fst = (log.filter (closing kind)).map Prod.fst ∧
      (∀ client, (serial.2 client).Asks fun call => Sectioned kind (handler call)) ∧
      Stands kind world held handler config serial := by
  induction run with
  | start => exact ⟨[], (start, clients), .start, rfl, sectioned, .idle free fun _ => rfl⟩
  | @step log config after entry earlier last ih =>
    obtain ⟨serialLog, serial, reached, order, asks, stands⟩ := ih
    obtain ⟨onward, serially, further⟩ := stands.step guards asks last
    unfold Serially at serially
    split at serially
    · rename_i closes
      obtain ⟨event, step⟩ := serially
      have later := (step.asks asks).2
      refine ⟨serialLog ++ [(entry.1, event)], onward, .step reached step, ?_, later, further⟩
      simp [order, closes]
    · rename_i open'
      subst serially
      refine ⟨serialLog, onward, reached, ?_, asks, further⟩
      simp [order, open']

end Interaction
