import Rjcore.Interaction.Interleaving

/-!
# Footprints

What a program can ask for, whatever it is answered. A kind of operations that holds of the
pieces of a program holds of their sequence, and of every step of threads that run it.
-/

namespace Interaction

variable {sig : Signature} {α β : Type}

namespace Program

/-- Every operation the program can ask for is of a kind. -/
def Asks (kind : sig.Op → Prop) : Program sig α → Prop
  | .done _ => True
  | .ask op next => kind op ∧ ∀ answer, (next answer).Asks kind

namespace Asks

variable {kind wider : sig.Op → Prop}

/-- A sequence asks for what its pieces ask for. -/
theorem bind {program : Program sig α} {next : α → Program sig β} (first : program.Asks kind)
    (second : ∀ value, (next value).Asks kind) : (program >>= next).Asks kind := by
  induction program with
  | done value => exact second value
  | ask op rest ih =>
    obtain ⟨here, later⟩ := first
    exact ⟨here, fun answer => ih answer (later answer)⟩

/-- Operations of a kind are of every wider kind. -/
theorem mono {program : Program sig α} (asks : program.Asks kind)
    (included : ∀ op, kind op → wider op) : program.Asks wider := by
  induction program with
  | done value => trivial
  | ask op rest ih =>
    obtain ⟨here, later⟩ := asks
    exact ⟨included op here, fun answer => ih answer (later answer)⟩

/-- Every program asks for operations of a kind that all of them are of. -/
theorem of_forall {program : Program sig α} (holds : ∀ op, kind op) : program.Asks kind := by
  induction program with
  | done value => trivial
  | ask op next ih => exact ⟨holds op, ih⟩

/-- A choice asks for what its branches ask for. -/
theorem ite {condition : Prop} [Decidable condition] {left right : Program sig α}
    (first : left.Asks kind) (second : right.Asks kind) :
    (if condition then left else right).Asks kind := by
  split
  · exact first
  · exact second

end Asks

end Program

section Threads

variable {ι W : Type} [DecidableEq ι] {world : World sig W} {allowed : ι → sig.Op → Prop}

/-- A thread performs what it may ask for, and may ask for no more afterwards. -/
theorem Step.asks {config after : W × (ι → Program sig α)} {entry : ι × Event sig}
    (step : Step world config entry after)
    (asks : ∀ thread, (config.2 thread).Asks (allowed thread)) :
    allowed entry.1 entry.2.op ∧ ∀ thread, (after.2 thread).Asks (allowed thread) := by
  obtain @⟨state, after, pool, mover, op, next, answer, waiting, moves⟩ := step
  have own := asks mover
  simp only [waiting] at own
  refine ⟨own.1, fun thread => ?_⟩
  by_cases same : thread = mover
  · subst same
    simpa only [Function.update_self] using own.2 answer
  · simpa only [Function.update_of_ne same] using asks thread

end Threads

end Interaction
