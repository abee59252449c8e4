import Mathlib.Data.List.Basic

/-!
# Interaction programs

A program asks its environment to perform operations and continues with the answers. A
signature lists the operations and the type of answer each one has. The environment is
left open: `Runs` relates a program to every trace that some choice of answers produces,
and `Ensures` states a property of all of them at once. Both follow the structure of the
program, so the rule for sequencing is proved once and used for every program.

A world gives answers a meaning: `Follows` is the part of a trace's history that a world
keeps, annotated with the world in which each operation was performed.
-/

namespace Interaction

/-- The operations a program may ask for, each with its type of answers. -/
structure Signature where
  /-- Operations. -/
  Op : Type
  /-- Answers of an operation. -/
  Answer : Op → Type

/-- One operation together with the answer it received. -/
structure Event (sig : Signature) where
  /-- The operation asked for. -/
  op : sig.Op
  /-- The answer received. -/
  answer : sig.Answer op

/-- A program over a signature: finished, or waiting for the answer of an operation. -/
inductive Program (sig : Signature) (α : Type) : Type
  | done (value : α)
  | ask (op : sig.Op) (next : sig.Answer op → Program sig α)

variable {sig : Signature} {α β : Type}

namespace Program

/-- Run a first program and continue with its value. -/
def bind : Program sig α → (α → Program sig β) → Program sig β
  | .done value, next => next value
  | .ask op rest, next => .ask op fun answer => (rest answer).bind next

instance : Monad (Program sig) where
  pure := .done
  bind := Program.bind

/-- Ask for one operation and return its answer. -/
def perform (op : sig.Op) : Program sig (sig.Answer op) := .ask op .done

@[simp] theorem pure_eq (value : α) : (pure value : Program sig α) = .done value := rfl

@[simp] theorem done_bind (value : α) (next : α → Program sig β) :
    (Program.done value >>= next) = next value := rfl

@[simp] theorem ask_bind (op : sig.Op) (rest : sig.Answer op → Program sig α)
    (next : α → Program sig β) :
    (Program.ask op rest >>= next) = .ask op fun answer => rest answer >>= next := rfl

@[simp] theorem perform_bind (op : sig.Op) (next : sig.Answer op → Program sig β) :
    (perform op >>= next) = .ask op next := rfl

/-- Sequencing twice is sequencing once with the composed continuation. -/
@[simp] theorem bind_assoc {γ : Type} (program : Program sig α) (first : α → Program sig β)
    (second : β → Program sig γ) :
    (program >>= first >>= second) = (program >>= fun value => first value >>= second) := by
  induction program with
  | done value => rfl
  | ask op rest ih =>
    simp only [ask_bind, ih]

/-- A trace and value that some answers of the environment produce. -/
inductive Runs : Program sig α → List (Event sig) → α → Prop
  | done (value : α) : Runs (.done value) [] value
  | ask {op : sig.Op} {next : sig.Answer op → Program sig α} {trace : List (Event sig)}
      {value : α} (answer : sig.Answer op) (rest : Runs (next answer) trace value) :
      Runs (.ask op next) (⟨op, answer⟩ :: trace) value

/-- Every run of the program satisfies the postcondition on its trace and value. -/
def Ensures : Program sig α → (List (Event sig) → α → Prop) → Prop
  | .done value, post => post [] value
  | .ask op next, post =>
    ∀ answer, (next answer).Ensures fun trace value => post (⟨op, answer⟩ :: trace) value

@[simp] theorem ensures_done (value : α) (post : List (Event sig) → α → Prop) :
    (Program.done value).Ensures post ↔ post [] value := Iff.rfl

@[simp] theorem ensures_ask (op : sig.Op) (next : sig.Answer op → Program sig α)
    (post : List (Event sig) → α → Prop) :
    (Program.ask op next).Ensures post ↔
      ∀ answer, (next answer).Ensures fun trace value => post (⟨op, answer⟩ :: trace) value :=
  Iff.rfl

/-- `Ensures` speaks of exactly the runs of the program. -/
theorem ensures_iff {program : Program sig α} {post : List (Event sig) → α → Prop} :
    program.Ensures post ↔ ∀ trace value, program.Runs trace value → post trace value := by
  induction program generalizing post with
  | done value =>
    constructor
    · intro holds trace result run
      cases run
      exact holds
    · intro holds
      exact holds [] value (.done value)
  | ask op next ih =>
    constructor
    · intro holds trace value run
      cases run with
      | ask answer rest => exact (ih answer).mp (holds answer) _ _ rest
    · intro holds answer
      exact (ih answer).mpr fun trace value run => holds _ _ (.ask answer run)

/-- A run of a sequence is a run of its first program followed by a run of the second. -/
theorem runs_bind {program : Program sig α} {next : α → Program sig β}
    {trace : List (Event sig)} {value : β} :
    (program >>= next).Runs trace value ↔ ∃ first middle second,
      trace = first ++ second ∧ program.Runs first middle ∧ (next middle).Runs second value := by
  induction program generalizing trace with
  | done middle =>
    constructor
    · intro run
      exact ⟨[], middle, trace, rfl, .done middle, run⟩
    · rintro ⟨first, _, second, rfl, ⟨⟩, run⟩
      exact run
  | ask op rest ih =>
    constructor
    · intro run
      rw [ask_bind] at run
      cases run with
      | ask answer run =>
        obtain ⟨first, middle, second, rfl, before, after⟩ := (ih answer).mp run
        exact ⟨⟨op, answer⟩ :: first, middle, second, rfl, .ask answer before, after⟩
    · rintro ⟨_, middle, second, rfl, ⟨⟩ | ⟨answer, before⟩, after⟩
      exact .ask answer ((ih answer).mpr ⟨_, middle, second, rfl, before, after⟩)

/-- The postcondition of a sequence, taken apart at the middle value. -/
theorem ensures_bind {program : Program sig α} {next : α → Program sig β}
    {post : List (Event sig) → β → Prop} :
    (program >>= next).Ensures post ↔ program.Ensures fun first middle =>
      (next middle).Ensures fun second value => post (first ++ second) value := by
  induction program generalizing post with
  | done middle => rfl
  | ask op rest ih =>
    rw [ask_bind, ensures_ask, ensures_ask]
    exact forall_congr' fun answer => ih answer

/-- A weaker postcondition holds of the same runs. -/
theorem Ensures.mono {program : Program sig α} {strong weak : List (Event sig) → α → Prop}
    (holds : program.Ensures strong) (weaker : ∀ trace value, strong trace value → weak trace value) :
    program.Ensures weak :=
  ensures_iff.mpr fun trace value run => weaker trace value (ensures_iff.mp holds trace value run)

/-- A property of all traces and values holds of every run. -/
theorem Ensures.of_forall {program : Program sig α} {post : List (Event sig) → α → Prop}
    (holds : ∀ trace value, post trace value) : program.Ensures post :=
  ensures_iff.mpr fun trace value _ => holds trace value

/-- Where every operation has an answer, every program has a run. -/
theorem exists_runs [answers : ∀ op, Nonempty (sig.Answer op)] (program : Program sig α) :
    ∃ trace value, program.Runs trace value := by
  induction program with
  | done value => exact ⟨[], value, .done value⟩
  | ask op next ih =>
    obtain ⟨answer⟩ := answers op
    obtain ⟨trace, value, rest⟩ := ih answer
    exact ⟨⟨op, answer⟩ :: trace, value, .ask answer rest⟩

/-- A program that asks first has a run with every answer to its first operation. -/
theorem exists_runs_ask [∀ op, Nonempty (sig.Answer op)] {op : sig.Op}
    (next : sig.Answer op → Program sig α) (answer : sig.Answer op) :
    ∃ trace value, (Program.ask op next).Runs (⟨op, answer⟩ :: trace) value := by
  obtain ⟨trace, value, rest⟩ := exists_runs (next answer)
  exact ⟨trace, value, .ask answer rest⟩

/-- A run of a first program is the beginning of a run of the sequence. -/
theorem exists_runs_bind [∀ op, Nonempty (sig.Answer op)] {program : Program sig α}
    {trace : List (Event sig)} {value : α} (run : program.Runs trace value)
    (next : α → Program sig β) :
    ∃ rest result, (program >>= next).Runs (trace ++ rest) result := by
  obtain ⟨rest, result, after⟩ := exists_runs (next value)
  exact ⟨rest, result, runs_bind.mpr ⟨trace, value, rest, rfl, run, after⟩⟩

/-- A property that holds of every run of a first program, and with it of every run of the
whole, holds of the sequence. -/
theorem Ensures.bind {program : Program sig α} {next : α → Program sig β}
    {middle : List (Event sig) → α → Prop} {post : List (Event sig) → β → Prop}
    (first : program.Ensures middle)
    (second : ∀ trace value, middle trace value →
      (next value).Ensures fun rest result => post (trace ++ rest) result) :
    (program >>= next).Ensures post :=
  ensures_bind.mpr (first.mono second)

/-- Run a program against an environment that answers by a function of its own state. -/
def runWith {S : Type} (respond : S → (op : sig.Op) → sig.Answer op × S) :
    S → Program sig α → α × S
  | state, .done value => (value, state)
  | state, .ask op next =>
    let answered := respond state op
    runWith respond answered.2 (next answered.1)

end Program

/-- What a world allows: the answers an operation may receive in it, and the world after. -/
abbrev World (sig : Signature) (W : Type) : Type := W → (op : sig.Op) → sig.Answer op → W → Prop

/-- A trace that a world allows, each event annotated with the world it was performed in. -/
inductive Follows {W : Type} (world : World sig W) : W → List (W × Event sig) → W → Prop
  | nil (state : W) : Follows world state [] state
  | cons {state middle final : W} {event : Event sig} {rest : List (W × Event sig)}
      (moves : world state event.op event.answer middle) (after : Follows world middle rest final) :
      Follows world state ((state, event) :: rest) final

namespace Follows

variable {W : Type} {world : World sig W}

/-- Two allowed traces in order are allowed. -/
theorem append {start middle final : W} {first second : List (W × Event sig)}
    (before : Follows world start first middle) (after : Follows world middle second final) :
    Follows world start (first ++ second) final := by
  induction before with
  | nil state => exact after
  | cons moves _ ih => exact .cons moves (ih after)

/-- An allowed trace splits at every point. -/
theorem split {first second : List (W × Event sig)} {start final : W}
    (whole : Follows world start (first ++ second) final) :
    ∃ middle, Follows world start first middle ∧ Follows world middle second final := by
  induction first generalizing start with
  | nil => exact ⟨start, .nil start, whole⟩
  | cons step first ih =>
    cases whole with
    | cons moves after =>
      obtain ⟨middle, before, rest⟩ := ih after
      exact ⟨middle, .cons moves before, rest⟩

end Follows

end Interaction
