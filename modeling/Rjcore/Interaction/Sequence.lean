import Rjcore.Interaction.Program

/-!
# Programs one after another

A world in which programs run to completion, each starting in the state the last one left.
`Within` states a property of every run of a program that the world allows.
An invariant that every execution keeps holds after all of them, and what it implies for
one execution holds for each (`InSequence.invariant`).
-/

namespace Interaction

variable {sig : Signature} {α W : Type}

namespace Program

/-- Every run that the world allows satisfies the postcondition on its steps, its value and
the world it leaves. -/
def Within (world : World sig W) :
    Program sig α → W → (List (W × Event sig) → α → W → Prop) → Prop
  | .done value, state, post => post [] value state
  | .ask op next, state, post => ∀ answer middle, world state op answer middle →
    (next answer).Within world middle fun steps value final =>
      post ((state, ⟨op, answer⟩) :: steps) value final

/-- A weaker postcondition holds of the same runs. -/
theorem Within.mono {world : World sig W} {program : Program sig α} {start : W}
    {strong weak : List (W × Event sig) → α → W → Prop}
    (holds : program.Within world start strong)
    (weaker : ∀ steps value final, strong steps value final → weak steps value final) :
    program.Within world start weak := by
  induction program generalizing start strong weak with
  | done value => exact weaker _ _ _ holds
  | ask op next ih =>
    intro answer middle moves
    exact ih answer (holds answer middle moves) fun steps value final => weaker _ _ _

/-- A property of all steps, values and worlds holds of every run. -/
theorem Within.of_forall {world : World sig W} {program : Program sig α} {start : W}
    {post : List (W × Event sig) → α → W → Prop}
    (holds : ∀ steps value final, post steps value final) : program.Within world start post := by
  induction program generalizing start post with
  | done value => exact holds _ _ _
  | ask op next ih => exact fun answer middle _ => ih answer fun _ _ _ => holds _ _ _

/-- The second of two programs runs in the world that the first one leaves. -/
theorem Within.bind {β : Type} {world : World sig W} {program : Program sig α}
    {next : α → Program sig β} {start : W} {between : List (W × Event sig) → α → W → Prop}
    {post : List (W × Event sig) → β → W → Prop} (first : program.Within world start between)
    (second : ∀ steps value middle, between steps value middle →
      (next value).Within world middle fun rest result final => post (steps ++ rest) result final) :
    (program >>= next).Within world start post := by
  induction program generalizing start between post with
  | done value => exact second _ _ _ first
  | ask op rest ih =>
    intro answer middle moves
    exact ih answer (first answer middle moves) fun steps value final => second _ _ _

/-- Two properties of the runs within a world hold together. -/
theorem Within.and {world : World sig W} {program : Program sig α} {start : W}
    {left right : List (W × Event sig) → α → W → Prop} (first : program.Within world start left)
    (second : program.Within world start right) :
    program.Within world start fun steps value final =>
      left steps value final ∧ right steps value final := by
  induction program generalizing start left right with
  | done value => exact ⟨first, second⟩
  | ask op next ih =>
    intro answer middle moves
    exact ih answer (first answer middle moves) (second answer middle moves)

/-- Where the world always allows an answer, there is a run within it. -/
theorem Within.exists_run {world : World sig W} {program : Program sig α} {start : W}
    {post : List (W × Event sig) → α → W → Prop}
    (able : ∀ state op, ∃ answer after, world state op answer after)
    (holds : program.Within world start post) : ∃ steps value final, post steps value final := by
  induction program generalizing start post with
  | done value => exact ⟨[], value, start, holds⟩
  | ask op next ih =>
    obtain ⟨answer, after, moves⟩ := able start op
    obtain ⟨steps, value, final, last⟩ := ih answer (holds answer after moves)
    exact ⟨_, value, final, last⟩

/-- What holds within a world holds of every run that follows it. -/
theorem Within.run {world : World sig W} {program : Program sig α} {start final : W}
    {post : List (W × Event sig) → α → W → Prop} {steps : List (W × Event sig)} {value : α}
    (holds : program.Within world start post) (runs : program.Runs (steps.map Prod.snd) value)
    (follows : Follows world start steps final) : post steps value final := by
  induction follows generalizing program post with
  | nil state =>
    cases runs
    exact holds
  | cons moves _ ih =>
    cases runs with
    | ask answer rest => exact ih (holds answer _ moves) rest

end Program

/-- A program run from its beginning to its end. -/
structure Execution (sig : Signature) (α W : Type) where
  /-- The program. -/
  program : Program sig α
  /-- The world it started in. -/
  before : W
  /-- Its events, each with the world it was performed in. -/
  steps : List (W × Event sig)
  /-- Its value. -/
  value : α
  /-- The world it left. -/
  after : W

namespace Execution

/-- The events of an execution. -/
def trace (execution : Execution sig α W) : List (Event sig) := execution.steps.map Prod.snd

/-- The steps are a run of the program that the world allows. -/
structure Valid (world : World sig W) (execution : Execution sig α W) : Prop where
  /-- The program may run so. -/
  runs : execution.program.Runs execution.trace execution.value
  /-- The world allows it. -/
  follows : Follows world execution.before execution.steps execution.after

/-- What holds of every run within a world holds of an execution. -/
theorem Valid.within {world : World sig W} {execution : Execution sig α W}
    {post : List (W × Event sig) → α → W → Prop} (valid : execution.Valid world)
    (holds : execution.program.Within world execution.before post) :
    post execution.steps execution.value execution.after :=
  holds.run valid.runs valid.follows

/-- Run a program against an environment that answers by a function of the world. -/
def respond (answer : W → (op : sig.Op) → sig.Answer op × W) (start : W) :
    Program sig α → Execution sig α W
  | .done value => ⟨.done value, start, [], value, start⟩
  | .ask op next =>
    let answered := answer start op
    let rest := respond answer answered.2 (next answered.1)
    ⟨.ask op next, start, (start, ⟨op, answered.1⟩) :: rest.steps, rest.value, rest.after⟩

/-- The answers of a function that the world allows make an execution. -/
theorem respond_valid {world : World sig W} {answer : W → (op : sig.Op) → sig.Answer op × W}
    (allowed : ∀ state op, world state op (answer state op).1 (answer state op).2)
    (start : W) (program : Program sig α) :
    (respond answer start program).Valid world ∧ (respond answer start program).program = program ∧
      (respond answer start program).before = start := by
  induction program generalizing start with
  | done value => exact ⟨⟨.done value, .nil start⟩, rfl, rfl⟩
  | ask op next ih =>
    obtain ⟨⟨runs, follows⟩, same, before⟩ := ih (answer start op).1 (answer start op).2
    rw [same] at runs
    rw [before] at follows
    exact ⟨⟨.ask _ runs, .cons (allowed start op) follows⟩, rfl, rfl⟩

end Execution

/-- Executions of which each starts where the one before it ended. -/
inductive InSequence (world : World sig W) : W → List (Execution sig α W) → W → Prop
  | nil (state : W) : InSequence world state [] state
  | cons {execution : Execution sig α W} {rest : List (Execution sig α W)} {final : W}
      (valid : execution.Valid world) (onward : InSequence world execution.after rest final) :
      InSequence world execution.before (execution :: rest) final

/-- Run programs one after another against such an environment. -/
def Execution.respondAll (answer : W → (op : sig.Op) → sig.Answer op × W) :
    W → List (Program sig α) → List (Execution sig α W)
  | _, [] => []
  | start, program :: rest =>
    let first := respond answer start program
    first :: respondAll answer first.after rest

/-- The answers of a function that the world allows make a sequence. -/
theorem Execution.respondAll_inSequence {world : World sig W}
    {answer : W → (op : sig.Op) → sig.Answer op × W}
    (allowed : ∀ state op, world state op (answer state op).1 (answer state op).2)
    (start : W) (programs : List (Program sig α)) :
    (∃ final, InSequence world start (respondAll answer start programs) final) ∧
      (respondAll answer start programs).map Execution.program = programs := by
  induction programs generalizing start with
  | nil => exact ⟨⟨start, .nil start⟩, rfl⟩
  | cons program rest ih =>
    obtain ⟨valid, same, before⟩ := respond_valid allowed start program
    obtain ⟨⟨final, onward⟩, others⟩ := ih (respond answer start program).after
    have sequence := InSequence.cons valid onward
    rw [before] at sequence
    refine ⟨⟨final, sequence⟩, ?_⟩
    rw [respondAll, List.map_cons, same, others]

/-- What every execution preserves holds at every entry and in the end. -/
theorem InSequence.invariant {world : World sig W} {start final : W}
    {executions : List (Execution sig α W)}
    (sequence : InSequence world start executions final) (invariant : W → Prop)
    (initially : invariant start)
    (preserved : ∀ execution ∈ executions, execution.Valid world → invariant execution.before →
      invariant execution.after) :
    invariant final ∧ ∀ execution ∈ executions,
      execution.Valid world ∧ invariant execution.before ∧ invariant execution.after := by
  induction sequence with
  | nil state => exact ⟨initially, fun _ member => absurd member List.not_mem_nil⟩
  | @cons execution rest final valid onward ih =>
    have left := preserved execution List.mem_cons_self valid initially
    obtain ⟨last, others⟩ := ih left fun other member =>
      preserved other (List.mem_cons_of_mem _ member)
    refine ⟨last, fun other member => ?_⟩
    rcases List.mem_cons.mp member with rfl | later
    · exact ⟨valid, initially, left⟩
    · exact others other later

end Interaction
