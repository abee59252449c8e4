import Rjcore.Interaction.Handler

/-!
# Opening and closing

Threads open and close things of some kind. A program is balanced in this respect when it closes
only what it has opened and leaves nothing open. Of threads that run such programs, in every
interleaving and at every moment, fewer things have been closed than opened.
-/

namespace Interaction

variable {sig : Signature} {α β ι W : Type}

/-- How many things a thread has open; closing one more is refused. -/
def openCount (opens closes : Event sig → Bool) : Monitor sig Nat := fun count op answer =>
  if opens ⟨op, answer⟩ then some (count + 1)
  else if closes ⟨op, answer⟩ then match count with
    | 0 => none
    | count + 1 => some count
  else some count

/-- A program that closes everything it opens and nothing else. -/
def Closes (opens closes : Event sig → Bool) (program : Program sig α) : Prop :=
  ∀ count, program.Obeys (openCount opens closes) count fun after _ => after = count

variable {opens closes : Event sig → Bool}

namespace Closes

/-- A finished program has nothing to close. -/
theorem done (value : α) : Closes opens closes (.done value : Program sig α) := fun _ => rfl

/-- A sequence closes what its pieces open. -/
theorem bind {program : Program sig α} {next : α → Program sig β}
    (first : Closes opens closes program) (second : ∀ value, Closes opens closes (next value)) :
    Closes opens closes (program >>= next) := by
  intro count
  refine Program.Obeys.bind (first count) fun after value same => ?_
  subst same
  exact second value after

/-- An operation that opens nothing and closes nothing. -/
theorem ask {op : sig.Op} {next : sig.Answer op → Program sig α}
    (neither : ∀ answer, opens ⟨op, answer⟩ = false ∧ closes ⟨op, answer⟩ = false)
    (later : ∀ answer, Closes opens closes (next answer)) :
    Closes opens closes (.ask op next) := by
  intro count answer
  obtain ⟨opened, closed⟩ := neither answer
  exact ⟨count, by simp [openCount, opened, closed], later answer count⟩

/-- A program closes what it opens when the implementations of its operations do. -/
theorem through {outer : Signature} {program : Program outer α}
    {handler : (op : outer.Op) → Program sig (outer.Answer op)}
    (closing : ∀ op, Closes opens closes (handler op)) :
    Closes opens closes (program.through handler) := by
  induction program with
  | done value => exact .done value
  | ask op next ih => exact (closing op).bind ih

end Closes

/-- Along a trace that a thread may perform, what was opened is still open or was closed. -/
theorem openCount_after (apart : ∀ event, opens event = true → closes event = false)
    {trace : List (Event sig)} {count after : Nat}
    (performed : (openCount opens closes).after count trace = some after) :
    count + trace.countP opens = trace.countP closes + after := by
  induction trace generalizing count with
  | nil =>
    cases performed
    simp
  | cons event trace ih =>
    obtain ⟨op, answer⟩ := event
    simp only [Monitor.after, openCount] at performed
    by_cases opened : opens ⟨op, answer⟩ = true
    · have closed := apart _ opened
      simp only [opened, ↓reduceIte, Option.bind_some] at performed
      have rest := ih performed
      rw [List.countP_cons_of_pos opened, List.countP_cons_of_neg (by simp [closed])]
      omega
    · by_cases closed : closes ⟨op, answer⟩ = true
      · cases count with
        | zero => simp [opened, closed] at performed
        | succ count =>
          simp only [opened, closed, Bool.false_eq_true, ↓reduceIte, Option.bind_some] at performed
          have rest := ih performed
          rw [List.countP_cons_of_neg opened, List.countP_cons_of_pos closed]
          omega
      · simp only [opened, closed, Bool.false_eq_true, ↓reduceIte, Option.bind_some] at performed
        have rest := ih performed
        rw [List.countP_cons_of_neg opened, List.countP_cons_of_neg closed]
        exact rest

variable [DecidableEq ι]

/-- The log without the entries of a thread. -/
def withoutThread (thread : ι) (log : List (ι × Event sig)) : List (ι × Event sig) :=
  log.filter fun entry => !decide (entry.1 = thread)

/-- The events of a thread and the log without them are the whole log. -/
theorem countP_withoutThread (p : Event sig → Bool) (thread : ι) (log : List (ι × Event sig)) :
    log.countP (fun entry => p entry.2) =
      (ownTrace thread log).countP p + (withoutThread thread log).countP fun entry => p entry.2 := by
  have parts := (List.filter_append_perm (fun entry : ι × Event sig => decide (entry.1 = thread))
    log).countP_eq fun entry => p entry.2
  rw [← parts, List.countP_append, ownTrace, List.countP_map]
  rfl

/-- The log without a thread has the events of the others. -/
theorem ownTrace_withoutThread (thread other : ι) (log : List (ι × Event sig)) :
    ownTrace other (withoutThread thread log) = if other = thread then [] else ownTrace other log := by
  rw [ownTrace, withoutThread, List.filter_filter]
  split
  · rename_i same
    subst same
    simp
  · rename_i different
    have only : ∀ entry : ι × Event sig,
        (decide (entry.1 = other) && !decide (entry.1 = thread)) = decide (entry.1 = other) := by
      intro entry
      by_cases own : entry.1 = other <;> simp [own, different]
    simp only [only]
    rfl

/-- What occurs in the trace of every thread at most as often occurs in the log at most as often. -/
theorem countP_le_of_ownTrace {few many : Event sig → Bool} {log : List (ι × Event sig)}
    (each : ∀ thread, (ownTrace thread log).countP few ≤ (ownTrace thread log).countP many) :
    log.countP (fun entry => few entry.2) ≤ log.countP fun entry => many entry.2 := by
  -- induction on the length: the thread of the first entry apart, the others have a shorter log
  induction length : log.length using Nat.strongRecOn generalizing log with
  | _ size ih =>
    cases log with
    | nil => simp
    | cons entry log =>
      have shorter : (withoutThread entry.1 (entry :: log)).length < size := by
        rw [← length, withoutThread, List.filter_cons_of_neg (by simp)]
        exact Nat.lt_succ_of_le (List.length_filter_le _ _)
      have others := ih _ shorter (fun thread => by
        rw [ownTrace_withoutThread]
        split
        · exact Nat.le_refl _
        · exact each thread) rfl
      rw [countP_withoutThread few entry.1, countP_withoutThread many entry.1]
      exact Nat.add_le_add (each entry.1) others

/-- In every interleaving of threads that close only what they opened, fewer things have been
closed than opened. -/
theorem Reaches.closed_le_opened {world : World sig W} {start config : W × (ι → Program sig α)}
    {log : List (ι × Event sig)} (run : Reaches world start log config)
    (closing : ∀ thread, Closes opens closes (start.2 thread))
    (apart : ∀ event, opens event = true → closes event = false) :
    log.countP (fun entry => closes entry.2) ≤ log.countP fun entry => opens entry.2 := by
  obtain ⟨phase, shadow, _⟩ := run.shadow fun thread => closing thread 0
  refine countP_le_of_ownTrace fun thread => ?_
  have counted := openCount_after apart (shadow.phase_eq thread)
  rw [Nat.zero_add] at counted
  omega

end Interaction
