import Rjcore.Interaction.Atomic
import Rjcore.Interaction.Sequence

/-!
# The adder driver

The driver of `/dev/androint` keeps two integers under a semaphore: a write of two integers
stores them, and a read of one integer yields their sum. Its steps in the kernel interleave, a
wait for the semaphore may be interrupted, and a copy from or to a user may fault halfway.
Any number of processes see two registers that every call reads or writes at once.
-/

namespace Androint

open Interaction

/-- The first integer. -/
abbrev word0 : Fin 2 := ⟨0, Nat.zero_lt_two⟩

/-- The second integer. -/
abbrev word1 : Fin 2 := ⟨1, Nat.one_lt_two⟩

/-- The sum of both. -/
def sumOf (data : Vector Int32 2) : Int32 := data.get word0 + data.get word1

/-- What the driver asks of the kernel. -/
inductive Op
  | downInterruptible
  | up
  | load (index : Fin 2)
  /-- `copy_to_user(buf, &sum, sizeof(int))`. -/
  | copyToUser (sum : Int32)
  /-- The part of `copy_from_user(data, buf, count)` that copies one integer. -/
  | copyWord (index : Fin 2) (value : Int32)

/-- What the kernel may answer. -/
abbrev Op.Answer : Op → Type
  /- The wait was interrupted. -/
  | .downInterruptible => Bool
  | .up => Unit
  | .load _ => Int32
  /- Bytes are left, and the integer in the buffer of the user. -/
  | .copyToUser _ => Bool × Int32
  /- Bytes are left. -/
  | .copyWord _ _ => Bool

/-- The kernel under the driver. -/
abbrev kernel : Signature := ⟨Op, Op.Answer⟩

/-- Every operation may be answered. -/
instance (op : Op) : Nonempty (kernel.Answer op) := by
  cases op with
  | downInterruptible => exact ⟨false⟩
  | up => exact ⟨()⟩
  | load index => exact ⟨0⟩
  | copyToUser sum => exact ⟨false, sum⟩
  | copyWord index value => exact ⟨false⟩

/-- Ask the kernel for an operation. -/
abbrev perform (op : Op) : Program kernel op.Answer := .ask op .done

/-- `sizeof(int)`. -/
def sizeofInt : Nat := 4

/-- `ERESTARTSYS`. -/
def erestartsys : Int := 512

/-- `EFAULT`. -/
def efault : Int := 14

/-- The direction of an access, with the integers in the buffer of a writer. -/
inductive Access
  | read
  | write (first second : Int32)
  deriving DecidableEq

/-- `copy_from_user(data, buf, sizeof(int) * 2)`: the integers are copied in order until a copy
faults. -/
def copyFromUser (first second : Int32) : Program kernel Bool := do
  if ← perform (.copyWord word0 first) then pure true else perform (.copyWord word1 second)

/-- `androint_access` with the semaphore: the result, and what is left in a reader's buffer. -/
def transfer (count : Nat) : Access → Program kernel (Int × Option Int32)
  | .read => do
    let first ← perform (.load word0)
    let second ← perform (.load word1)
    let sum := first + second
    if count ≠ sizeofInt then pure (0, none)
    else do
      let (left, word) ← perform (.copyToUser sum)
      if left then pure (-efault, some word) else pure (count, some word)
  | .write first second => do
    if count ≠ sizeofInt * 2 then pure (0, none)
    else do
      let left ← copyFromUser first second
      if left then pure (-efault, none) else pure (count, none)

/-- `androint_access`. -/
def androint_access (access : Access) (count : Nat) : Program kernel (Int × Option Int32) := do
  if ← perform .downInterruptible then pure (-erestartsys, none)
  else do
    let result ← transfer count access
    perform .up
    pure result

/-- The calls of the device file. -/
inductive Call
  | read (count : Nat)
  | write (first second : Int32) (count : Nat)
  deriving DecidableEq

/-- The device file: each call has a result, and leaves something in a reader's buffer. -/
abbrev device : Signature := ⟨Call, fun _ => Int × Option Int32⟩

/-- `androint_fops`: `androint_read` and `androint_write`. -/
def androint_fops : (call : device.Op) → Program kernel (device.Answer call)
  | .read count => androint_access .read count
  | .write first second count => androint_access (.write first second) count

/-! ## The state of the driver -/

/-- `androint_device`. -/
structure androint_dev where
  /-- The semaphore is taken. -/
  sem : Bool
  data : Vector Int32 2
  deriving DecidableEq

/-- The device with one integer replaced. -/
def androint_dev.store (state : androint_dev) (index : Fin 2) (value : Int32) : androint_dev :=
  ⟨state.sem, state.data.set index value⟩

/-- The kernel executes the operations on the device. A fault leaves the integers in any state. -/
def kernelWorld : World kernel androint_dev
  | state, .downInterruptible, interrupted, after =>
    if interrupted then after = state else state.sem = false ∧ after = ⟨true, state.data⟩
  | state, .up, _, after => after = ⟨false, state.data⟩
  | state, .load index, value, after => value = state.data.get index ∧ after = state
  | state, .copyToUser sum, (left, word), after => (left = false → word = sum) ∧ after = state
  | state, .copyWord index value, left, after =>
    after.sem = state.sem ∧ (left = false → after = state.store index value)

/-- The semaphore begins and ends a section, and an interrupted wait refuses it. -/
def semaphoreSection : (op : kernel.Op) → kernel.Answer op → SectionEvent
  | .downInterruptible, interrupted => if interrupted then .refused else .enters
  | .up, _ => .leaves
  | _, _ => .inside

/-- The semaphore guards the section. -/
theorem kernelWorld_guards : Guards semaphoreSection kernelWorld androint_dev.sem where
  enters := by
    intro state op answer after does moves
    cases op with
    | downInterruptible =>
      cases answer with
      | true => contradiction
      | false =>
        obtain ⟨free, rfl⟩ := moves
        exact ⟨free, rfl⟩
    | _ => contradiction
  refused := by
    intro state op answer after does moves
    cases op with
    | downInterruptible =>
      cases answer with
      | true => exact ⟨moves, fun _ => rfl⟩
      | false => contradiction
    | _ => contradiction
  inside := by
    intro state op answer after does moves
    cases op with
    | downInterruptible => cases answer <;> contradiction
    | up => contradiction
    | load index => rw [moves.2]
    | copyToUser sum => rw [moves.2]
    | copyWord index value => exact moves.1
  leaves := by
    intro state op answer after does moves
    cases op with
    | downInterruptible => cases answer <;> contradiction
    | up => rw [show after = _ from moves]
    | _ => contradiction

/-- What is done with the semaphore leaves it alone. -/
theorem transfer_asks (count : Nat) (access : Access) : (transfer count access).Asks
    fun op : kernel.Op => ∀ answer, semaphoreSection op answer = .inside := by
  have plain : ∀ result : Int × Option Int32, (Program.done result : Program kernel _).Asks
    fun op : kernel.Op => ∀ answer, semaphoreSection op answer = .inside := fun _ => trivial
  cases access with
  | read =>
    refine ⟨fun _ => rfl, fun _ => ⟨fun _ => rfl, fun _ => .ite (plain _) ?_⟩⟩
    exact ⟨fun _ => rfl, fun _ => .ite (plain _) (plain _)⟩
  | write first second =>
    refine .ite (plain _) (.bind ?_ fun _ => .ite (plain _) (plain _))
    exact ⟨fun _ => rfl, fun _ => .ite trivial ⟨fun _ => rfl, fun _ => trivial⟩⟩

/-- Every call is one section, however it ends. -/
theorem androint_access_sectioned (access : Access) (count : Nat) :
    Sectioned semaphoreSection (androint_access access count) := by
  intro interrupted
  cases interrupted with
  | true => exact ⟨.over, rfl, rfl⟩
  | false =>
    refine ⟨.inside, rfl, (obeys_inside (transfer_asks count access)).bind ?_⟩
    intro phase result inside
    subst inside
    exact fun _ => ⟨.over, rfl, rfl⟩

/-- Every call of the device file is one section. -/
theorem androint_fops_sectioned (call : device.Op) :
    Sectioned semaphoreSection (androint_fops call) := by
  cases call with
  | read count => exact androint_access_sectioned _ _
  | write first second count => exact androint_access_sectioned _ _

end Androint
