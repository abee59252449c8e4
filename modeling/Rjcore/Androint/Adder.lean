import Rjcore.Androint.Driver

/-!
# Two registers

What the driver is for: a call reads or writes two registers at once, is interrupted without an
effect, or is refused for its size without one. Only a write that faults leaves the registers
in an unknown state. Every interleaving of calls in the kernel is a serial run of such calls.
-/

namespace Androint

open Interaction

/-- What a call does to the registers, with its result and what it leaves in a reader's buffer. -/
inductive Effect : Call → Vector Int32 2 → Int × Option Int32 → Vector Int32 2 → Prop
  | interrupted (call : Call) (data : Vector Int32 2) : Effect call data (-erestartsys, none) data
  | readSize {count : Nat} (wrong : count ≠ sizeofInt) (data : Vector Int32 2) :
      Effect (.read count) data (0, none) data
  | read (data : Vector Int32 2) :
      Effect (.read sizeofInt) data (sizeofInt, some (sumOf data)) data
  | readFault (data : Vector Int32 2) (word : Int32) :
      Effect (.read sizeofInt) data (-efault, some word) data
  | writeSize {count : Nat} (wrong : count ≠ sizeofInt * 2) (first second : Int32)
      (data : Vector Int32 2) : Effect (.write first second count) data (0, none) data
  | write (first second : Int32) (data : Vector Int32 2) :
      Effect (.write first second (sizeofInt * 2)) data ((sizeofInt * 2 : Nat), none)
        #v[first, second]
  | writeFault (first second : Int32) (data after : Vector Int32 2) :
      Effect (.write first second (sizeofInt * 2)) data (-efault, none) after

/-- The device as its users see it. -/
def adder : World device (Vector Int32 2) := fun data call answer after =>
  Effect call data answer after

/-- Both integers are replaced. -/
theorem set_both (data : Vector Int32 2) (first second : Int32) :
    (data.set 0 first).set 1 second = #v[first, second] := by
  ext index bound
  rcases index with _ | _ | index
  · simp
  · simp
  · omega

/-- Every whole call has the effect of a call on the registers. -/
theorem androint_fops_within (call : Call) (data : Vector Int32 2) :
    (androint_fops call).Within kernelWorld ⟨false, data⟩ fun _ answer final =>
      Effect call data answer final.data := by
  cases call with
  | read count =>
    rintro (_ | _) middle moves
    · obtain ⟨_, rfl⟩ := moves
      rintro first _ ⟨rfl, rfl⟩ second _ ⟨rfl, rfl⟩
      by_cases wrong : count ≠ sizeofInt
      · simp only [if_pos wrong]
        rintro _ _ rfl
        exact .readSize wrong data
      · simp only [if_neg wrong]
        rintro ⟨left, word⟩ _ ⟨copied, rfl⟩
        cases left with
        | true =>
          rintro _ _ rfl
          rw [not_not.mp wrong]
          exact .readFault data word
        | false =>
          rintro _ _ rfl
          rw [not_not.mp wrong, copied rfl]
          exact .read data
    · subst moves
      exact .interrupted _ data
  | write first second count =>
    rintro (_ | _) middle moves
    · obtain ⟨_, rfl⟩ := moves
      by_cases wrong : count ≠ sizeofInt * 2
      · change Program.Within _ ((if _ then _ else _) >>= _) _ _
        rw [if_pos wrong]
        rintro _ _ rfl
        exact .writeSize wrong first second data
      · change Program.Within _ ((if _ then _ else _) >>= _) _ _
        rw [if_neg wrong, not_not.mp wrong]
        rintro (_ | _) before ⟨_, copied⟩
        · rintro (_ | _) last ⟨_, copied'⟩ _ _ rfl
          · have both : last.data = #v[first, second] := by
              rw [copied' rfl, copied rfl]
              exact set_both data first second
            simp only [both]
            exact .write first second data
          · exact .writeFault first second data _
        · rintro _ _ rfl
          exact .writeFault first second data _
    · subst moves
      exact .interrupted _ data

/-- In every interleaving of any number of processes the calls are serial calls on two registers,
in the order in which they are interrupted or free the semaphore: each process has the same
results, and while the semaphore is free the registers and the processes are where the serial
run has left them. -/
theorem calls_serial {ι α : Type} [DecidableEq ι] (clients : ι → Program device α)
    {data : Vector Int32 2} {log : List (ι × Event kernel)}
    {config : androint_dev × (ι → Program kernel α)}
    (run : Reaches kernelWorld
      (⟨false, data⟩, fun client => (clients client).through androint_fops) log config) :
    ∃ calls serial, Reaches adder (data, clients) calls serial ∧
      calls.map Prod.fst = (log.filter (closing semaphoreSection)).map Prod.fst ∧
      (∀ client value, config.2 client = .done value ↔ serial.2 client = .done value) ∧
      (config.1.sem = false → config.1.data = serial.1 ∧
        ∀ client, config.2 client = (serial.2 client).through androint_fops) := by
  have every : ∀ client, (clients client).Asks
      fun call => Sectioned semaphoreSection (androint_fops call) :=
    fun client => .of_forall androint_fops_sectioned
  obtain ⟨calls, serial, reached, order, asks, stands⟩ := run.serial kernelWorld_guards rfl every
  have effect : ∀ (state : androint_dev) call answer (after : androint_dev), state.sem = false →
      atomically kernelWorld androint_fops state call answer after →
        after.sem = false ∧ adder state.data call answer after.data := by
    intro state call answer after free step
    have freed := atomically_free kernelWorld_guards (androint_fops_sectioned call) step free
    obtain ⟨steps, runs, follows⟩ := step
    have start : state = ⟨false, state.data⟩ := by rw [← free]
    exact ⟨freed, (androint_fops_within call state.data).run runs (start ▸ follows)⟩
  obtain ⟨_, own⟩ := reached.simulate androint_dev.data (androint_dev.sem · = false) rfl effect
  refine ⟨calls, _, own, order, stands.finished_iff asks, fun free => ⟨?_, fun client => ?_⟩⟩
  · rw [stands.settled free]
  · exact stands.threads_settled free client

/-- The registers after a call that does not fault in a write. -/
def registers (data : Vector Int32 2) (event : Event device) : Vector Int32 2 :=
  match event.op with
  | .read _ => data
  | .write first second _ => if event.answer.1 = (sizeofInt * 2 : Nat) then #v[first, second] else data

/-- A write that faults. -/
def Faulted (event : Event device) : Prop :=
  event.answer.1 = -efault ∧ ∃ first second count, event.op = .write first second count

/-- What a call without a faulting write does to the registers. -/
theorem Effect.registers_eq {call : Call} {data after : Vector Int32 2} {answer : Int × Option Int32}
    (effect : Effect call data answer after) (sound : ¬Faulted ⟨call, answer⟩) :
    after = registers data ⟨call, answer⟩ := by
  cases effect with
  | interrupted =>
    cases call with
    | read count => rfl
    | write first second count =>
      simp only [registers]
      rw [if_neg (by decide)]
  | writeSize wrong first second =>
    simp only [registers]
    rw [if_neg (by decide)]
  | write first second => simp only [registers, ↓reduceIte]
  | writeFault first second => exact absurd ⟨rfl, first, second, _, rfl⟩ sound
  | _ => rfl

section Calls

variable {ι α : Type}

/-- The registers after calls of any processes. -/
def afterCalls (data : Vector Int32 2) (calls : List (ι × Event device)) : Vector Int32 2 :=
  calls.foldl (fun data entry => registers data entry.2) data

/-- A call that does not write. -/
def NoWrite (entry : ι × Event device) : Prop :=
  ∀ first second count, entry.2.op ≠ .write first second count

/-- Calls that do not write leave the registers. -/
theorem afterCalls_noWrite {data : Vector Int32 2} {calls : List (ι × Event device)}
    (reads : ∀ entry ∈ calls, NoWrite entry) : afterCalls data calls = data := by
  induction calls with
  | nil => rfl
  | cons entry calls ih =>
    obtain ⟨process, call, answer⟩ := entry
    cases call with
    | read count => exact ih fun other member => reads other (List.mem_cons_of_mem _ member)
    | write first second count => exact absurd rfl (reads _ List.mem_cons_self first second count)

variable [DecidableEq ι] {data : Vector Int32 2} {programs : ι → Program device α}
  {calls : List (ι × Event device)} {config : Vector Int32 2 × (ι → Program device α)}

/-- Without a faulting write the registers hold what was written last. -/
theorem registers_of_reaches (run : Reaches adder (data, programs) calls config)
    (sound : ∀ entry ∈ calls, ¬Faulted entry.2) : config.1 = afterCalls data calls := by
  induction run with
  | start => rfl
  | @step calls before after entry earlier last ih =>
    have settled := ih fun other member => sound other (List.mem_append_left _ member)
    have own := sound entry (List.mem_append_right _ (List.mem_singleton.mpr rfl))
    cases last with
    | act waiting moves =>
      rw [afterCalls, List.foldl_append]
      change _ = registers (afterCalls data calls) _
      rw [← settled]
      exact Effect.registers_eq moves own

/-- A successful read yields the sum of the registers. -/
theorem Effect.read_eq {count : Nat} {data after : Vector Int32 2} {answer : Int × Option Int32}
    (effect : Effect (.read count) data answer after) (success : answer.1 = sizeofInt) :
    answer.2 = some (sumOf data) := by
  cases effect with
  | read => rfl
  | _ => contradiction

/-- A successful write stores both integers. -/
theorem Effect.write_eq {first second : Int32} {count : Nat} {data after : Vector Int32 2}
    {answer : Int × Option Int32} (effect : Effect (.write first second count) data answer after)
    (success : answer.1 = (sizeofInt * 2 : Nat)) : after = #v[first, second] := by
  cases effect with
  | write => rfl
  | _ => contradiction

/-- A successful read yields the sum of what was written last before it. -/
theorem read_of_reaches {before after : List (ι × Event device)} {process : ι} {count : Nat}
    {answer : Int × Option Int32}
    (run : Reaches adder (data, programs) (before ++ (process, ⟨.read count, answer⟩) :: after) config)
    (success : answer.1 = sizeofInt) (sound : ∀ entry ∈ before, ¬Faulted entry.2) :
    answer.2 = some (sumOf (afterCalls data before)) := by
  rw [List.append_cons] at run
  obtain ⟨later, until_read, _⟩ := run.split
  obtain ⟨earlier, reached, step⟩ := until_read.last_step
  rw [← registers_of_reaches reached sound]
  cases step with
  | act waiting moves => exact Effect.read_eq moves success

end Calls

/-- In every interleaving of any number of processes that use the device file, the calls have an
order, the one in which they are interrupted or free the semaphore, in which they are serial:
while the semaphore is free every process is where the serial run has left it, every process that
has ended has done its calls with the results of this order, a successful read yields the sum of
the integers of the last successful write before it, and these stand in the registers while the
semaphore is free, as long as no write faults. -/
theorem androint_registers {ι α : Type} [DecidableEq ι] (clients : ι → Program device α)
    {data : Vector Int32 2} {log : List (ι × Event kernel)}
    {config : androint_dev × (ι → Program kernel α)}
    (run : Reaches kernelWorld
      (⟨false, data⟩, fun client => (clients client).through androint_fops) log config) :
    ∃ calls serial, Reaches adder (data, clients) calls serial ∧
      calls.map Prod.fst = (log.filter (closing semaphoreSection)).map Prod.fst ∧
      (config.1.sem = false →
        ∀ client, config.2 client = (serial.2 client).through androint_fops) ∧
      (∀ client value, config.2 client = .done value →
        (clients client).Runs (ownTrace client calls) value) ∧
      (∀ before client count (answer : Int × Option Int32) after,
        calls = before ++ (client, ⟨.read count, answer⟩) :: after → answer.1 = sizeofInt →
          (∀ entry ∈ before, ¬Faulted entry.2) →
            answer.2 = some (sumOf (afterCalls data before))) ∧
      (config.1.sem = false → (∀ entry ∈ calls, ¬Faulted entry.2) →
        config.1.data = afterCalls data calls) := by
  obtain ⟨calls, serial, own, order, finished, settled⟩ := calls_serial clients run
  refine ⟨calls, serial, own, order, fun free => (settled free).2, fun client value ended => ?_, ?_,
    fun free sound => ?_⟩
  · have last : (serial.2 client).Runs [] value := by
      rw [(finished client value).mp ended]
      exact .done value
    have whole := own.runs last
    rwa [List.append_nil] at whole
  · rintro before client count answer after rfl success sound
    exact read_of_reaches own success sound
  · rw [(settled free).1]
    exact registers_of_reaches own sound

/-- A process that writes two integers, and a process that reads their sum. -/
def writerAndReader (writes : Bool) : Program device (Int × Option Int32) :=
  if writes then .ask (.write 1 2 8) .done else .ask (.read 4) .done

/-- A kernel without interruptions and faults. -/
def quietKernel (state : androint_dev) : (op : Op) → op.Answer × androint_dev
  | .downInterruptible => (false, ⟨true, state.data⟩)
  | .up => ((), ⟨false, state.data⟩)
  | .load index => (state.data.get index, state)
  | .copyToUser sum => ((false, sum), state)
  | .copyWord index value => (false, state.store index value)

/-- The semaphore is free when it is taken. -/
def quietAble (state : androint_dev) : Op → Bool
  | .downInterruptible => !state.sem
  | _ => true

/-- Such a kernel executes the operations. -/
theorem quietKernel_allowed (state : androint_dev) (op : Op) (able : quietAble state op = true) :
    kernelWorld state op (quietKernel state op).1 (quietKernel state op).2 := by
  cases op with
  | downInterruptible => exact ⟨by simpa [quietAble] using able, rfl⟩
  | up => rfl
  | load index => exact ⟨rfl, rfl⟩
  | copyToUser sum => exact ⟨fun _ => rfl, rfl⟩
  | copyWord index value => exact ⟨rfl, fun _ => rfl⟩

/-- The writer has the semaphore first, and the reader takes it when the writer has freed it. -/
theorem androint_registers_two : ∃ calls : List (Bool × Event device),
    calls.map Prod.fst = [true, false] ∧
      (writerAndReader false).Runs (ownTrace false calls) (4, some 3) := by
  obtain ⟨log, config, played, closed, result⟩ : ∃ log config, play quietKernel
      [true, true, true, true, false, false, false, false, false] []
      (⟨false, #v[0, 0]⟩, fun client => (writerAndReader client).through androint_fops) =
        some (log, config) ∧
      (log.filter (closing semaphoreSection)).map Prod.fst = [true, false] ∧
      config.2 false = .done (4, some 3) := ⟨_, _, rfl, by decide, rfl⟩
  have run := play_reaches_able quietKernel_allowed _ .start (by decide) played
  obtain ⟨calls, serial, _, order, _, runs, _⟩ := androint_registers writerAndReader run
  exact ⟨calls, order.trans closed, runs false _ result⟩

end Androint
