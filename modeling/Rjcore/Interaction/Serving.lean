import Rjcore.Interaction.Handler

/-!
# Calls in progress

A client's program asks for calls, and a handler implements each call by operations. `After` is
what remains of a program after a part of a run. A client whose next operation is known is in a
call: some calls have returned to it, its own program then asks for one more, and the
implementation of that call has come to the operation (`Program.After.serving`). So what an
operation belongs to, and what happened since the call began, can be said of every thread of an
interleaving.
-/

namespace Interaction

variable {sig outer : Signature} {α β ι W : Type}

/-- What remains of a program after some operations have been answered. -/
inductive Program.After : Program sig α → List (Event sig) → Program sig α → Prop
  | nil (program : Program sig α) : After program [] program
  | ask {op : sig.Op} {next : sig.Answer op → Program sig α} {trace : List (Event sig)}
      {rest : Program sig α} (answer : sig.Answer op) (later : After (next answer) trace rest) :
      After (.ask op next) (⟨op, answer⟩ :: trace) rest

/-- The calls that have returned to a client, the call it is in, the operations so far, and the
next operation. -/
inductive Serving (handler : (call : outer.Op) → Program sig (outer.Answer call)) :
    Program outer α → List (Event outer) → outer.Op → List (Event sig) → sig.Op → Prop
  /-- The first call of the client. -/
  | first {call : outer.Op} {onward : outer.Answer call → Program outer α}
      {trace : List (Event sig)} {op : sig.Op}
      {rest : sig.Answer op → Program sig (outer.Answer call)}
      (begun : (handler call).After trace (.ask op rest)) :
      Serving handler (.ask call onward) [] call trace op
  /-- A call after one that has returned. -/
  | later {call current : outer.Op} {onward : outer.Answer call → Program outer α}
      {answer : outer.Answer call} {past : List (Event outer)} {before trace : List (Event sig)}
      {op : sig.Op} (returned : (handler call).Runs before answer)
      (serving : Serving handler (onward answer) past current trace op) :
      Serving handler (.ask call onward) (⟨call, answer⟩ :: past) current (before ++ trace) op

namespace Program.After

/-- One more answer. -/
theorem concat {program : Program sig α} {trace : List (Event sig)} {op : sig.Op}
    {next : sig.Answer op → Program sig α} (run : program.After trace (.ask op next))
    (answer : sig.Answer op) : program.After (trace ++ [⟨op, answer⟩]) (next answer) := by
  generalize remains : Program.ask op next = rest at run
  induction run with
  | nil program =>
    subst remains
    exact .ask answer (.nil _)
  | ask first later ih => exact .ask first (ih remains)

/-- What happened and what is asked for next is of the kind of the program. -/
theorem asks {kind : sig.Op → Prop} {program rest : Program sig α} {trace : List (Event sig)}
    (run : program.After trace rest) (asks : program.Asks kind) :
    (∀ event ∈ trace, kind event.op) ∧ rest.Asks kind := by
  induction run with
  | nil program => exact ⟨fun _ member => absurd member List.not_mem_nil, asks⟩
  | ask answer later ih =>
    obtain ⟨events, last⟩ := ih (asks.2 answer)
    exact ⟨List.forall_mem_cons.mpr ⟨asks.1, events⟩, last⟩

/-- A sequence is in its first program, or through with it. -/
theorem bind_split {program : Program sig α} {next : α → Program sig β} {trace : List (Event sig)}
    {rest : Program sig β} (run : (program >>= next).After trace rest) :
    (∃ op within, program.After trace (.ask op within) ∧
        rest = .ask op fun answer => within answer >>= next) ∨
      ∃ before after value, trace = before ++ after ∧ program.Runs before value ∧
        (next value).After after rest := by
  induction program generalizing trace with
  | done value => exact .inr ⟨[], trace, value, rfl, .done value, run⟩
  | ask op onward ih =>
    rw [ask_bind] at run
    cases run with
    | nil => exact .inl ⟨op, onward, .nil _, rfl⟩
    | ask answer later =>
      rcases ih answer later with ⟨op', within, inside, remains⟩ |
        ⟨before, after, value, rfl, through, behind⟩
      · exact .inl ⟨op', within, .ask answer inside, remains⟩
      · exact .inr ⟨_, after, value, rfl, .ask answer through, behind⟩

variable {handler : (call : outer.Op) → Program sig (outer.Answer call)}

/-- A client with a next operation is in a call. -/
theorem serving {client : Program outer α} {trace : List (Event sig)} {op : sig.Op}
    {next : sig.Answer op → Program sig α}
    (run : (client.through handler).After trace (.ask op next)) :
    ∃ past call, Serving handler client past call trace op := by
  induction client generalizing trace with
  | done value => cases run
  | ask call onward ih =>
    rw [through_ask] at run
    rcases run.bind_split with ⟨op', within, inside, remains⟩ |
      ⟨before, after, answer, rfl, returned, behind⟩
    · cases remains
      exact ⟨[], call, .first inside⟩
    · obtain ⟨past, current, serving⟩ := ih answer behind
      exact ⟨_, current, .later returned serving⟩

end Program.After

namespace Serving

variable {handler : (call : outer.Op) → Program sig (outer.Answer call)}
  {client : Program outer α} {past : List (Event outer)} {call : outer.Op}
  {trace : List (Event sig)} {op : sig.Op}

/-- The next operation is one of the call. -/
theorem asks {kind : sig.Op → Prop} (serving : Serving handler client past call trace op)
    (implemented : (handler call).Asks kind) : kind op := by
  induction serving with
  | first begun => exact (begun.asks implemented).2.1
  | later _ _ ih => exact ih implemented

end Serving

section Threads

variable [DecidableEq ι] {world : World sig W}

/-- What a thread has come to is what remains of its program. -/
theorem Reaches.after {start config : W × (ι → Program sig α)} {log : List (ι × Event sig)}
    (run : Reaches world start log config) (thread : ι) :
    (start.2 thread).After (ownTrace thread log) (config.2 thread) := by
  induction run with
  | start => exact .nil _
  | step earlier last ih =>
    cases last with
    | @act state after pool mover op next answer waiting moves =>
      by_cases same : thread = mover
      · subst same
        rw [ownTrace_concat_self]
        simp only [waiting] at ih
        simpa only [Function.update_self] using ih.concat answer
      · rw [ownTrace_concat_other (Ne.symm same)]
        simpa only [Function.update_of_ne same] using ih

end Threads

end Interaction
