import Rjcore.Interaction.Knowledge
import Rjcore.Mokoid.LedService

/-!
# The published device

A thread that makes a service object replaces the device that the other threads use. Only the stub
of one board opens the device file before it publishes the device, and even there the compiler
may publish the device before it stores the descriptor; otherwise a request that comes in between
goes to a descriptor that was not opened. What a thread has to know is that a device is settled:
its descriptor is one that was opened.
-/

namespace Mokoid

open Interaction

/-- The descriptor that an operation uses. -/
def Op.descriptor : Op → Option Int32
  | .ioctl fd _ _ => some fd
  | .write fd _ => some fd
  | _ => none

section Requests

variable {ι : Type} {log : List (ι × Event system)}

/-- Opening the device file has given the descriptor, which is negative where it failed. -/
def Opened (log : List (ι × Event system)) (fd : Int32) : Prop :=
  ∃ thread path, (thread, ⟨.open path, fd⟩) ∈ log

/-- Every request goes to a descriptor that was opened before. -/
def RequestsOpened (log : List (ι × Event system)) : Prop :=
  ∀ before entry after, log = before ++ entry :: after →
    ∀ fd, entry.2.op.descriptor = some fd → Opened before fd

/-- More steps do not close a descriptor. -/
theorem Opened.later {fd : Int32} (opened : Opened log fd) (entry : ι × Event system) :
    Opened (log ++ [entry]) fd :=
  have ⟨thread, path, member⟩ := opened
  ⟨thread, path, List.mem_append_left _ member⟩

/-- The descriptor that an event opens. -/
def openedBy : Event system → Option Int32
  | ⟨.open _, fd⟩ => some fd
  | _ => none

/-- One of the events has opened it. -/
theorem opened_iff {fd : Int32} : Opened log fd ↔ ∃ entry ∈ log, openedBy entry.2 = some fd := by
  constructor
  · rintro ⟨thread, path, member⟩
    exact ⟨_, member, rfl⟩
  · rintro ⟨⟨thread, op, answer⟩, member, opens⟩
    cases op with
    | «open» path =>
      cases opens
      exact ⟨thread, path, member⟩
    | _ => contradiction

/-- What threads know of descriptors and devices. -/
inductive LedFact
  /-- The descriptor was opened. -/
  | opened (fd : Int32)
  /-- The device exists. -/
  | allocated (dev : DevicePtr)
  /-- The descriptor of the device was opened. -/
  | settled (dev : DevicePtr)

/-- The meaning of the facts. -/
def LedFact.Holds (log : List (ι × Event system)) (state : Memory) : LedFact → Prop
  | .opened fd => Opened log fd
  | .allocated dev => dev < state.fds.length
  | .settled dev => ∃ fd, state.fds[dev]? = some fd ∧ Opened log fd

/-- Descriptors that are used or stored have been opened, and a device is settled before it is
published. Then one that is published is settled, and so is its descriptor. -/
def publication : Knowledge system LedFact where
  requires
    | .setFd dev fd => {.allocated dev, .opened fd}
    | .setLedDevice dev => {.settled dev}
    | .getFd dev => {.settled dev}
    | .ioctl fd _ _ => {.opened fd}
    | .write fd _ => {.opened fd}
    | _ => ∅
  teaches
    | .malloc, dev => {.allocated dev}
    | .open _, fd => {.opened fd}
    | .setFd dev _, _ => {.settled dev}
    | .getFd _, fd => {.opened fd}
    | .getLedDevice, some dev => {.settled dev}
    | .derefLedDevice, dev => {.settled dev}
    | _, _ => ∅

/-- The published device is settled. -/
def Published (log : List (ι × Event system)) (state : Memory) : Prop :=
  ∀ dev, state.sLedDevice = some dev → LedFact.Holds log state (.settled dev)

variable {state after : Memory} {op : system.Op} {answer : system.Answer op}

/-- What an operation may do to the devices. -/
theorem fds_step (moves : memoryWorld state op answer after) :
    after.fds = state.fds ∨ after.fds = state.fds ++ [0] ∨
      ∃ dev fd, op = .setFd dev fd ∧ after.fds = state.fds.set dev fd := by
  cases op with
  | malloc =>
    obtain ⟨_, rfl⟩ := moves
    exact .inr (.inl rfl)
  | setFd dev fd =>
    obtain rfl : after = _ := moves
    exact .inr (.inr ⟨dev, fd, rfl, rfl⟩)
  | setLedDevice dev =>
    obtain rfl : after = _ := moves
    exact .inl rfl
  | getFd dev => exact .inl (congrArg Memory.fds moves.2)
  | getLedDevice => exact .inl (congrArg Memory.fds moves.2)
  | derefLedDevice => exact .inl (congrArg Memory.fds moves.2)
  | _ => exact .inl (congrArg Memory.fds moves)

/-- What an operation may do to the pointer. -/
theorem sLedDevice_step (moves : memoryWorld state op answer after) :
    after.sLedDevice = state.sLedDevice ∨
      ∃ dev, op = .setLedDevice dev ∧ after.sLedDevice = some dev := by
  cases op with
  | setLedDevice dev =>
    obtain rfl : after = _ := moves
    exact .inr ⟨dev, rfl, rfl⟩
  | setFd dev fd =>
    obtain rfl : after = _ := moves
    exact .inl rfl
  | malloc =>
    obtain ⟨_, rfl⟩ := moves
    exact .inl rfl
  | getFd dev => exact .inl (congrArg Memory.sLedDevice moves.2)
  | getLedDevice => exact .inl (congrArg Memory.sLedDevice moves.2)
  | derefLedDevice => exact .inl (congrArg Memory.sLedDevice moves.2)
  | _ => exact .inl (congrArg Memory.sLedDevice moves)

/-- What holds is not lost by an operation that stores opened descriptors only. -/
theorem LedFact.Holds.later {fact : LedFact} (holds : fact.Holds log state)
    (moves : memoryWorld state op answer after)
    (stores : ∀ dev fd, op = .setFd dev fd → Opened log fd) (thread : ι) :
    fact.Holds (log ++ [(thread, ⟨op, answer⟩)]) after := by
  cases fact with
  | opened fd => exact Opened.later holds _
  | allocated dev =>
    change dev < after.fds.length
    change dev < state.fds.length at holds
    rcases fds_step moves with same | longer | ⟨_, _, _, changed⟩
    · rwa [same]
    · rw [longer, List.length_append]
      exact Nat.lt_add_right _ holds
    · rwa [changed, List.length_set]
  | settled dev =>
    obtain ⟨fd, field, opened⟩ := holds
    have inside : dev < state.fds.length := (List.getElem?_eq_some_iff.mp field).1
    rcases fds_step moves with same | longer | ⟨other, stored, does, changed⟩
    · exact ⟨fd, by rw [same, field], opened.later _⟩
    · exact ⟨fd, by rw [longer, List.getElem?_append_left inside, field], opened.later _⟩
    · by_cases own : other = dev
      · subst own
        refine ⟨stored, ?_, (stores other stored does).later _⟩
        rw [changed, List.getElem?_set_self inside]
      · exact ⟨fd, by rw [changed, List.getElem?_set_ne own, field], opened.later _⟩

/-- Operations in accordance with the discipline keep the published device settled. -/
theorem publication_sound :
    publication.Sound memoryWorld (Published : List (ι × Event system) → Memory → Prop)
      LedFact.Holds := by
  have stores : ∀ (log : List (ι × Event system)) state (op : system.Op),
      (∀ fact ∈ publication.requires op, LedFact.Holds log state fact) →
        ∀ dev fd, op = .setFd dev fd → Opened log fd := by
    rintro log state _ required dev fd rfl
    exact required (.opened fd) (.inr rfl)
  constructor
  · intro log state thread op answer after published required moves dev shared
    rcases sLedDevice_step moves with same | ⟨own, rfl, now⟩
    · rw [same] at shared
      exact (published dev shared).later moves (stores log state op required) thread
    · obtain rfl : own = dev := Option.some.inj (now.symm.trans shared)
      exact (required (.settled own) rfl).later moves (stores log state _ required) thread
  · intro log state thread op answer after _ required moves fact holds
    exact holds.later moves (stores log state op required) thread
  · intro log state thread op answer after published required moves fact learned
    have entry : (thread, (⟨op, answer⟩ : Event system)) ∈ log ++ [(thread, ⟨op, answer⟩)] :=
      List.mem_append_right _ (List.mem_singleton.mpr rfl)
    cases op with
    | malloc =>
      obtain ⟨rfl, rfl⟩ := moves
      obtain rfl : fact = _ := learned
      change state.fds.length < (state.fds ++ [0]).length
      rw [List.length_append]
      exact Nat.lt_succ_self _
    | «open» path =>
      obtain rfl : fact = _ := learned
      exact ⟨thread, path, entry⟩
    | setFd dev fd =>
      obtain rfl : fact = _ := learned
      have inside : dev < state.fds.length := required (.allocated dev) (.inl rfl)
      have opened : Opened log fd := required (.opened fd) (.inr rfl)
      obtain rfl : after = _ := moves
      exact ⟨fd, List.getElem?_set_self inside, opened.later _⟩
    | getFd dev =>
      obtain rfl : fact = _ := learned
      obtain ⟨field, rfl⟩ := moves
      obtain ⟨fd, field', opened⟩ := required (.settled dev) rfl
      obtain rfl : fd = answer := Option.some.inj (field'.symm.trans field)
      exact opened.later _
    | getLedDevice =>
      cases answer with
      | none => contradiction
      | some dev =>
        obtain rfl : fact = _ := learned
        exact (published dev moves.1.symm).later moves nofun thread
    | derefLedDevice =>
      obtain rfl : fact = _ := learned
      exact (published answer moves.1).later moves nofun thread
    | _ => contradiction

end Requests

/-! ## The stub that opens first -/

variable {compiled : Compiled}

/-- The stub opens the device file and stores the descriptor before it publishes the device. -/
theorem openThenPublish_informed (inOrder : compiled.descriptorFirst = true) (path : String) :
    (openThenPublish compiled path).Informed publication ∅ := by
  refine ⟨Set.empty_subset _, fun dev => ⟨Set.empty_subset _, fun fd => ?_⟩⟩
  change Program.Informed _ (if _ then _ else _) _
  rw [if_pos inOrder]
  refine ⟨?_, fun _ => ⟨?_, ?_⟩⟩
  · rintro _ (rfl | rfl)
    · exact .inl (.inr rfl)
    · exact .inr rfl
  · rintro _ rfl
    exact .inr rfl
  · exact fun _ => trivial

/-- A request on a settled device goes to its descriptor. -/
theorem control_informed (request : Int32) (dev : DevicePtr) (led : Int32) {known : Set LedFact}
    (settled : .settled dev ∈ known) :
    (Dma6410xp.control request dev led).Informed publication known := by
  refine ⟨?_, fun fd => ?_⟩
  · rintro _ rfl
    exact settled
  · change Program.Informed _ (if _ then _ else _) _
    split
    · refine ⟨?_, fun _ => trivial⟩
      rintro _ rfl
      exact .inr rfl
    · trivial

/-- A function of the device finds it settled, whichever load it follows. -/
theorem withDevice_informed {function : DevicePtr → Program system Int32}
    (informed : ∀ dev known, .settled dev ∈ known → (function dev).Informed publication known) :
    (withDevice compiled function).Informed publication ∅ := by
  refine ⟨Set.empty_subset _, fun shared => ?_⟩
  cases shared with
  | none => trivial
  | some dev =>
    change Program.Informed _ (if compiled.loadsOnce = true then _ else _) _
    split
    · exact (informed dev _ (.inr rfl)).bind fun _ => trivial
    · refine ⟨Set.empty_subset _, fun dev => ?_⟩
      exact (informed dev _ (.inr rfl)).bind fun _ => trivial

/-- Every call of the service, with the stub that opens first. -/
theorem invoke_informed (inOrder : compiled.descriptorFirst = true) (call : Call) :
    (LedService.invoke compiled (Dma6410xp.ledModule compiled) call).Informed publication ∅ := by
  cases call with
  | new =>
    refine ⟨Set.empty_subset _, fun found => ?_⟩
    cases found with
    | false => trivial
    | true =>
      refine ((openThenPublish_informed inOrder _).mono (Set.empty_subset _)).bind fun result => ?_
      change Program.Informed _ (if _ then _ else _) _
      split <;> trivial
  | setOn led => exact withDevice_informed fun dev _ => control_informed 1 dev led
  | setOff led => exact withDevice_informed fun dev _ => control_informed 2 dev led
  | setDeviceName name =>
    refine ⟨Set.empty_subset _, fun shared => ?_⟩
    cases shared <;> trivial

/-! ## Devices that are published first -/

/-- A system on which every operation succeeds. -/
def quietSystem (state : Memory) : (op : system.Op) → system.Answer op × Memory
  | .hwGetModule => (true, state)
  | .malloc => (state.fds.length, { state with fds := state.fds ++ [0] })
  | .open _ => (7, state)
  | .setFd dev fd => ((), { state with fds := state.fds.set dev fd })
  | .getFd dev => (state.fds.getD dev 0, state)
  | .setLedDevice dev => ((), { state with sLedDevice := some dev })
  | .getLedDevice => (state.sLedDevice, state)
  | .derefLedDevice => (state.sLedDevice.getD 0, state)
  | .ioctl _ _ _ => (0, state)
  | .write _ _ => (1, state)
  | .sleep _ => ((), state)

/-- The devices that an operation uses exist. -/
def deviceThere (state : Memory) : system.Op → Bool
  | .getFd dev => dev < state.fds.length
  | .derefLedDevice => state.sLedDevice.isSome
  | _ => true

/-- The system allows what it answers then. -/
theorem quietSystem_allowed (state : Memory) (op : system.Op)
    (there : deviceThere state op = true) :
    memoryWorld state op (quietSystem state op).1 (quietSystem state op).2 := by
  cases op with
  | malloc => exact ⟨rfl, rfl⟩
  | getLedDevice => exact ⟨rfl, rfl⟩
  | getFd dev =>
    have inside : dev < state.fds.length := by simpa [deviceThere] using there
    refine ⟨?_, rfl⟩
    rw [List.getElem?_eq_getElem inside]
    exact congrArg some (List.getElem_eq_getD 0)
  | derefLedDevice =>
    obtain ⟨dev, shared⟩ := Option.isSome_iff_exists.mp there
    refine ⟨?_, rfl⟩
    rw [shared]
    exact congrArg some (congrArg (Option.getD · 0) shared).symm
  | _ => rfl

/-- One thread makes a service object, and another one turns an LED on. -/
def makeAndUse (makes : Bool) : Program ledService Bool :=
  if makes then .ask .new .done else .ask (.setOn 1) .done

/-- The threads of a board. -/
abbrev sharing {ι α : Type} (board : Board) (compiled : Compiled)
    (clients : ι → Program ledService α) : ι → Program system α :=
  fun thread => (clients thread).through (LedService.invoke compiled (board.ledModule compiled))

/-- A request may go to a descriptor that none of the steps before it has opened. -/
theorem not_requestsOpened {board : Board} {compiled : Compiled} {schedule : List Bool} (n : Nat)
    {fd : Int32} {request : Bool × Event system} {log : List (Bool × Event system)}
    {config : Memory × (Bool → Program system Bool)}
    (played : play quietSystem schedule [] (.initial, sharing board compiled makeAndUse) =
      some (log, config))
    (possible : playable deviceThere quietSystem schedule
      ((.initial, sharing board compiled makeAndUse) : Memory × (Bool → Program system Bool)) = true)
    (position : log[n]? = some request) (uses : request.2.op.descriptor = some fd)
    (unopened : ∀ entry ∈ log.take n, openedBy entry.2 ≠ some fd) :
    ∃ log config, Reaches memoryWorld (.initial, sharing board compiled makeAndUse) log config ∧
      ¬RequestsOpened log := by
  refine ⟨log, config, play_reaches_able quietSystem_allowed _ .start possible played,
    fun requests => ?_⟩
  obtain ⟨inside, found⟩ := List.getElem?_eq_some_iff.mp position
  have split : log = log.take n ++ request :: log.drop (n + 1) := by
    rw [← found, ← List.drop_eq_getElem_cons inside, List.take_append_drop]
  obtain ⟨entry, member, opens⟩ := opened_iff.mp (requests _ _ _ split fd uses)
  exact unopened entry member opens

/-- One thread goes on until it has published a device, and then the other one uses the device. -/
def publishThenUse (board : Board) (compiled : Compiled) : List Bool :=
  List.replicate (if board = .dma6410xp then 4 else 3) true ++
    List.replicate (if compiled.loadsOnce then 3 else 4) false

/-- A device that is published before its descriptor is stored is used too early. -/
theorem published_early {board : Board} {compiled : Compiled}
    (early : ¬(board = .dma6410xp ∧ compiled.descriptorFirst = true)) :
    ∃ log config, Reaches memoryWorld (.initial, sharing board compiled makeAndUse) log config ∧
      ¬RequestsOpened log := by
  -- the request is the last step
  have last := @not_requestsOpened board compiled (publishThenUse board compiled)
    ((publishThenUse board compiled).length - 1)
  obtain ⟨first, loadsOnce⟩ := compiled
  cases board with
  | dma6410xp =>
    cases first with
    | true => exact absurd ⟨rfl, rfl⟩ early
    | false => cases loadsOnce <;> exact last rfl rfl rfl rfl (by decide)
  | goldfish => cases first <;> cases loadsOnce <;> exact last rfl rfl rfl rfl (by decide)
  | omap3 => cases first <;> cases loadsOnce <;> exact last rfl rfl rfl rfl (by decide)

/-- Threads that make service objects and use them, in any number and in any order of their steps,
send every request to a descriptor that was opened before, exactly with the stub that opens the
device file before it publishes the device, and only if the compiler has kept the order of the two
stores. -/
theorem requestsOpened_iff (board : Board) (compiled : Compiled) :
    (∀ (ι α : Type) [DecidableEq ι] (clients : ι → Program ledService α)
      (log : List (ι × Event system)) (config : Memory × (ι → Program system α)),
        Reaches memoryWorld (.initial, sharing board compiled clients) log config →
          RequestsOpened log) ↔
      board = .dma6410xp ∧ compiled.descriptorFirst = true := by
  constructor
  · intro always
    by_contra early
    obtain ⟨log, config, run, race⟩ := published_early early
    exact race (always Bool Bool makeAndUse log config run)
  · rintro ⟨rfl, inOrder⟩ ι α _ clients log config run before entry after rfl fd uses
    obtain ⟨state, required⟩ := run.required publication_sound nofun
      fun _ => .through (invoke_informed inOrder)
    obtain ⟨thread, op, answer⟩ := entry
    cases op with
    | ioctl fd' request led =>
      cases uses
      exact required (.opened fd) rfl
    | write fd' text =>
      cases uses
      exact required (.opened fd) rfl
    | _ => contradiction

end Mokoid
