import Mathlib.Data.Set.Basic
import Rjcore.Interaction.Handler

/-!
# What threads know

Threads of a shared world that rely on facts about it. A discipline says which facts a thread has
to know before it performs an operation, and which ones the answer teaches it. When the facts,
once true, stay true under every operation that is performed in accordance with the discipline,
each operation of each interleaving is performed where its requirements are true: it does not
matter what the other threads did since the thread learned of them.
-/

namespace Interaction

/-- What operations require and teach. -/
structure Knowledge (sig : Signature) (K : Type) where
  /-- The facts to be known before an operation. -/
  requires : sig.Op → Set K
  /-- The facts known after its answer. -/
  teaches : (op : sig.Op) → sig.Answer op → Set K

variable {sig : Signature} {α β ι K W : Type} {rules : Knowledge sig K}

namespace Program

/-- With what it knows and learns, the program knows all that its operations require. -/
def Informed (rules : Knowledge sig K) : Program sig α → Set K → Prop
  | .done _, _ => True
  | .ask op next, known => rules.requires op ⊆ known ∧
    ∀ answer, (next answer).Informed rules (known ∪ rules.teaches op answer)

namespace Informed

/-- A program may know more. -/
theorem mono {program : Program sig α} {known more : Set K}
    (informed : program.Informed rules known) (included : known ⊆ more) :
    program.Informed rules more := by
  induction program generalizing known more with
  | done value => trivial
  | ask op next ih =>
    obtain ⟨required, onward⟩ := informed
    exact ⟨required.trans included,
      fun answer => ih answer (onward answer) (Set.union_subset_union_left _ included)⟩

/-- A sequence is informed when its pieces are. -/
theorem bind {program : Program sig α} {next : α → Program sig β} {known : Set K}
    (first : program.Informed rules known) (second : ∀ value, (next value).Informed rules known) :
    (program >>= next).Informed rules known := by
  induction program generalizing known with
  | done value => exact second value
  | ask op rest ih =>
    obtain ⟨required, onward⟩ := first
    exact ⟨required, fun answer => ih answer (onward answer) fun value =>
      (second value).mono Set.subset_union_left⟩

/-- A program is informed when the implementations of its operations are. -/
theorem through {outer : Signature} {program : Program outer α}
    {handler : (op : outer.Op) → Program sig (outer.Answer op)} {known : Set K}
    (informed : ∀ op, (handler op).Informed rules known) :
    (program.through handler).Informed rules known := by
  induction program with
  | done value => trivial
  | ask op next ih => exact (informed op).bind ih

end Informed

end Program

variable [DecidableEq ι] {world : World sig W}
  {invariant : List (ι × Event sig) → W → Prop} {holds : List (ι × Event sig) → W → K → Prop}

/-- What one step that the discipline allows keeps and makes true. -/
structure Knowledge.Sound (rules : Knowledge sig K) (world : World sig W)
    (invariant : List (ι × Event sig) → W → Prop)
    (holds : List (ι × Event sig) → W → K → Prop) : Prop where
  keeps : ∀ log state thread op answer after, invariant log state →
    (∀ fact ∈ rules.requires op, holds log state fact) → world state op answer after →
      invariant (log ++ [(thread, ⟨op, answer⟩)]) after
  stable : ∀ log state thread op answer after, invariant log state →
    (∀ fact ∈ rules.requires op, holds log state fact) → world state op answer after →
      ∀ fact, holds log state fact → holds (log ++ [(thread, ⟨op, answer⟩)]) after fact
  teaches : ∀ log state thread op answer after, invariant log state →
    (∀ fact ∈ rules.requires op, holds log state fact) → world state op answer after →
      ∀ fact ∈ rules.teaches op answer, holds (log ++ [(thread, ⟨op, answer⟩)]) after fact

variable {start config : W × (ι → Program sig α)} {log : List (ι × Event sig)}

/-- At every moment the invariant holds, and every thread knows only what is true. -/
theorem Reaches.informed (run : Reaches world start log config)
    (sound : rules.Sound world invariant holds) (initially : invariant [] start.1)
    (informed : ∀ thread, (start.2 thread).Informed rules ∅) :
    invariant log config.1 ∧ ∀ thread, ∃ known, (config.2 thread).Informed rules known ∧
      ∀ fact ∈ known, holds log config.1 fact := by
  induction run with
  | start => exact ⟨initially, fun thread => ⟨∅, informed thread, fun _ => False.elim⟩⟩
  | @step log config after entry earlier last ih =>
    obtain ⟨invariantly, knows⟩ := ih
    cases last with
    | @act state after pool mover op next answer waiting moves =>
      obtain ⟨own, ⟨required, onward⟩, true_facts⟩ : ∃ own,
          (Program.ask op next).Informed rules own ∧ ∀ fact ∈ own, holds log state fact := by
        rw [← waiting]
        exact knows mover
      have allowed : ∀ fact ∈ rules.requires op, holds log state fact :=
        fun fact member => true_facts fact (required member)
      have stays := sound.stable log state mover op answer after invariantly allowed moves
      have learns := sound.teaches log state mover op answer after invariantly allowed moves
      refine ⟨sound.keeps log state mover op answer after invariantly allowed moves,
        fun thread => ?_⟩
      by_cases same : thread = mover
      · subst same
        refine ⟨own ∪ rules.teaches op answer, ?_, fun fact member => ?_⟩
        · simpa only [Function.update_self] using onward answer
        · exact member.elim (fun known => stays fact (true_facts fact known)) (learns fact)
      · obtain ⟨known, still, holding⟩ := knows thread
        refine ⟨known, ?_, fun fact member => stays fact (holding fact member)⟩
        simpa only [Function.update_of_ne same] using still

/-- Every operation is performed where what it requires is true. -/
theorem Reaches.required {before after : List (ι × Event sig)} {entry : ι × Event sig}
    (run : Reaches world start (before ++ entry :: after) config)
    (sound : rules.Sound world invariant holds) (initially : invariant [] start.1)
    (informed : ∀ thread, (start.2 thread).Informed rules ∅) :
    ∃ state, ∀ fact ∈ rules.requires entry.2.op, holds before state fact := by
  rw [List.append_cons] at run
  obtain ⟨middle, until_entry, _⟩ := run.split
  obtain ⟨earlier, reached, step⟩ := until_entry.last_step
  obtain ⟨_, knows⟩ := reached.informed sound initially informed
  cases step with
  | @act state after pool mover op next answer waiting moves =>
    obtain ⟨known, aware, true_facts⟩ := knows mover
    simp only [waiting] at aware
    exact ⟨state, fun fact member => true_facts fact (aware.1 member)⟩

end Interaction
