import Rjcore.Androint.Adder

/-!
# The adder of the HAL

`add_androint` opens the device file, writes both integers, reads the sum, closes the file, and
checks no result on the way. The write and the read are two calls of the driver, so another
process may write in between: what comes back is the sum of the integers that were written last.
-/

namespace Androint

open Interaction

/-- `add_androint`. `opened` says whether the device file can be opened, and `out` is what the
variable for the sum holds in the beginning. A call on a file that is not open does nothing. -/
def add_androint (opened : Bool) (out a b : Int32) : Program device Int32 :=
  if opened then do
    let _ ← (.ask (.write a b (sizeofInt * 2)) .done : Program device (Int × Option Int32))
    let read ← (.ask (.read sizeofInt) .done : Program device (Int × Option Int32))
    pure (read.2.getD out)
  else pure out

/-- `Java_com_eps_william_androint_AndroIntActivity_addJNI`, which goes to the device file without the
HAL. -/
def addJNI (opened : Bool) (result a b : Int32) : Program device Int32 :=
  if opened then do
    let _ ← (.ask (.write a b (sizeofInt * 2)) .done : Program device (Int × Option Int32))
    let read ← (.ask (.read sizeofInt) .done : Program device (Int × Option Int32))
    pure (read.2.getD result)
  else pure result

/-- The HAL makes no difference. -/
theorem addJNI_eq (opened : Bool) (result a b : Int32) :
    addJNI opened result a b = add_androint opened result a b := rfl

/-- One of the two ways to add. -/
def addition (jni opened : Bool) (out a b : Int32) : Program device Int32 :=
  if jni then addJNI opened out a b else add_androint opened out a b

/-- How an addition ended, among the calls of all processes. -/
structure Added {ι : Type} [DecidableEq ι] (data : Vector Int32 2) (out a b : Int32) (process : ι)
    (value : Int32) (before between after : List (ι × Event device))
    (written read : Int × Option Int32) (calls : List (ι × Event device)) : Prop where
  /-- It wrote first and read then. -/
  calls_eq : calls = before ++ (process, ⟨.write a b (sizeofInt * 2), written⟩) ::
    (between ++ (process, ⟨.read sizeofInt, read⟩) :: after)
  /-- It returns what the read left in its variable. -/
  value_eq : value = read.2.getD out
  /-- A successful read yields the sum of the integers that any process wrote last. -/
  last_written : read.1 = sizeofInt →
    (∀ entry ∈ before ++ (process, ⟨.write a b (sizeofInt * 2), written⟩) :: between,
      ¬Faulted entry.2) →
    value = sumOf (afterCalls data
      (before ++ (process, ⟨.write a b (sizeofInt * 2), written⟩) :: between))
  /-- Where its own write succeeds too and none comes in between, it yields its own sum. -/
  own : written.1 = (sizeofInt * 2 : Nat) → read.1 = sizeofInt → (∀ entry ∈ between, NoWrite entry) →
    value = a + b

/-- What an addition that has ended did. -/
theorem added_of_runs {ι : Type} [DecidableEq ι] {data : Vector Int32 2} {out a b : Int32}
    {process : ι} {value : Int32} {programs : ι → Program device Int32}
    {calls : List (ι × Event device)} {serial : Vector Int32 2 × (ι → Program device Int32)}
    (reached : Reaches adder (data, programs) calls serial)
    (runs : (add_androint true out a b).Runs (ownTrace process calls) value) :
    ∃ before between after written read,
      Added data out a b process value before between after written read calls := by
  obtain ⟨written, read, own, rfl⟩ : ∃ written read : Int × Option Int32,
      ownTrace process calls = [⟨.write a b (sizeofInt * 2), written⟩, ⟨.read sizeofInt, read⟩] ∧
        value = read.2.getD out := by
    generalize ownTrace process calls = trace at runs
    cases runs with
    | ask written runs =>
      cases runs with
      | ask read runs =>
        cases runs
        exact ⟨written, read, rfl, rfl⟩
  obtain ⟨before, rest, rfl, later⟩ := ownTrace_cons own
  obtain ⟨between, after, rfl, _⟩ := ownTrace_cons later
  refine ⟨before, between, after, written, read, rfl, rfl, fun success sound => ?_,
    fun stored success alone => ?_⟩
  · rw [← List.cons_append, ← List.append_assoc] at reached
    rw [read_of_reaches reached success sound]
    rfl
  · rw [List.append_cons] at reached
    obtain ⟨middle, until_write, onward⟩ := reached.split
    obtain ⟨earlier, _, step⟩ := until_write.last_step
    have sound : ∀ entry ∈ between, ¬Faulted entry.2 := fun entry member faulted =>
      have ⟨_, first, second, count, writes⟩ := faulted
      alone entry member first second count writes
    rw [read_of_reaches onward success sound, afterCalls_noWrite alone]
    cases step with
    | act waiting moves =>
      rw [Effect.write_eq moves stored]
      rfl

/-- In every interleaving of any number of additions, in either way, there is one order of their
calls of the driver that explains every result: as long as no write has faulted, an addition
yields the sum of the integers that were written last before its read, and it yields its own sum
when its write succeeded and no other write came between its calls. -/
theorem add_androint_result {ι : Type} [DecidableEq ι] (jni opened : ι → Bool)
    (out a b : ι → Int32) {data : Vector Int32 2} {log : List (ι × Event kernel)}
    {config : androint_dev × (ι → Program kernel Int32)}
    (run : Reaches kernelWorld (⟨false, data⟩, fun process =>
      (addition (jni process) (opened process) (out process) (a process) (b process)).through
        androint_fops) log config) :
    ∃ calls, calls.map Prod.fst = (log.filter (closing semaphoreSection)).map Prod.fst ∧
      ∀ process value, opened process = true → config.2 process = .done value →
        ∃ before between after written read, Added data (out process) (a process) (b process)
          process value before between after written read calls := by
  obtain ⟨calls, serial, reached, order, finished, _⟩ := calls_serial _ run
  refine ⟨calls, order, fun process value opens ended => ?_⟩
  have last : (serial.2 process).Runs [] value := by
    rw [(finished process value).mp ended]
    exact .done value
  have whole := reached.runs last
  rw [List.append_nil] at whole
  simp only [addition, addJNI_eq, ite_self, opens] at whole
  exact added_of_runs reached whole

/-- A process adds 1 and 2 without the HAL, and another one 3 and 4 meanwhile: the first one learns
that 1 and 2 make 7. -/
theorem add_androint_result_race : ∃ before between after written read calls,
    Added #v[0, 0] 0 1 2 true 7 before between after written read calls := by
  obtain ⟨log, config, played, result⟩ : ∃ log config, play quietKernel
      (List.replicate 4 true ++ List.replicate 4 false ++ List.replicate 5 true) []
      (⟨false, #v[0, 0]⟩, fun process : Bool =>
        (addition process true 0 (if process then 1 else 3) (if process then 2 else 4)).through
          androint_fops) = some (log, config) ∧ config.2 true = .done 7 := ⟨_, _, rfl, rfl⟩
  have run := play_reaches_able quietKernel_allowed _ .start (by decide) played
  obtain ⟨calls, _, added⟩ := add_androint_result id (fun _ => true) (fun _ => 0)
    (fun process : Bool => if process then 1 else 3) (fun process => if process then 2 else 4) run
  obtain ⟨before, between, after, written, read, outcome⟩ := added true 7 rfl result
  exact ⟨before, between, after, written, read, calls, outcome⟩

end Androint
