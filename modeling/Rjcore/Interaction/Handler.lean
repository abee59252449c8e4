import Rjcore.Interaction.Footprint

/-!
# Handlers

A handler implements the operations of one signature by programs over another one. `through`
replaces every operation of a program by its implementation. It commutes with sequencing,
two handlers compose to one, and only the operations that a program can ask for matter.
-/

namespace Interaction

variable {sig middle inner : Signature} {α β : Type}

namespace Program

/-- A program that returns what another one returned is that program. -/
@[simp] theorem bind_done (program : Program sig α) : (program >>= .done) = program := by
  induction program with
  | done value => rfl
  | ask op rest ih =>
    rw [ask_bind]
    exact congrArg (Program.ask op) (funext ih)

/-- Replace every operation by its implementation. -/
def through (handler : (op : sig.Op) → Program inner (sig.Answer op)) :
    Program sig α → Program inner α
  | .done value => .done value
  | .ask op next => handler op >>= fun answer => (next answer).through handler

section Through

variable (handler : (op : sig.Op) → Program inner (sig.Answer op))

@[simp] theorem through_done (value : α) :
    (Program.done value : Program sig α).through handler = .done value := rfl

@[simp] theorem through_ask (op : sig.Op) (next : sig.Answer op → Program sig α) :
    (Program.ask op next).through handler =
      handler op >>= fun answer => (next answer).through handler := rfl

/-- The implementation of a sequence is the sequence of the implementations. -/
@[simp] theorem through_bind (program : Program sig α) (next : α → Program sig β) :
    (program >>= next).through handler =
      program.through handler >>= fun value => (next value).through handler := by
  induction program with
  | done value => rfl
  | ask op rest ih =>
    rw [ask_bind, through_ask, through_ask, bind_assoc]
    exact congrArg (handler op >>= ·) (funext ih)

/-- Two implementations on top of each other are one. -/
theorem through_through (lower : (op : inner.Op) → Program middle (inner.Answer op))
    (program : Program sig α) :
    (program.through handler).through lower =
      program.through fun op => (handler op).through lower := by
  induction program with
  | done value => rfl
  | ask op rest ih =>
    rw [through_ask, through_bind, through_ask]
    exact congrArg ((handler op).through lower >>= ·) (funext ih)

end Through

/-- Handlers that agree on what a program can ask for implement it alike. -/
theorem through_congr {first second : (op : sig.Op) → Program inner (sig.Answer op)}
    {program : Program sig α} (agree : program.Asks fun op => first op = second op) :
    program.through first = program.through second := by
  induction program with
  | done value => rfl
  | ask op rest ih =>
    obtain ⟨here, later⟩ := agree
    rw [through_ask, through_ask, here]
    exact congrArg (second op >>= ·) (funext fun answer => ih answer (later answer))

/-- What an implementation asks for. -/
theorem Asks.through {kind : sig.Op → Prop} {lower : inner.Op → Prop}
    {handler : (op : sig.Op) → Program inner (sig.Answer op)} {program : Program sig α}
    (asks : program.Asks kind) (implemented : ∀ op, kind op → (handler op).Asks lower) :
    (program.through handler).Asks lower := by
  induction program with
  | done value => trivial
  | ask op rest ih =>
    obtain ⟨here, later⟩ := asks
    exact (implemented op here).bind fun answer => ih answer (later answer)

end Program

end Interaction
