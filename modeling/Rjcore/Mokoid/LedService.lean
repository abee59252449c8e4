import Rjcore.Interaction.Handler

/-!
# The LED service

`LedService` of Java reaches the LEDs of a board through its native methods and the stub library
of the board. The native methods share one pointer, `sLedDevice`, which every new service object
sets again, and nothing protects it. There are three stubs: they differ in what they do to the
device file, and in whether they publish a device before or after they open its file. Nothing
tells the compiler that threads share the pointer: it may swap two stores that stand side by
side, and keep what it has loaded. What it chose is a parameter.
-/

namespace Mokoid

open Interaction

/-- A pointer to a `led_control_device_t`. -/
abbrev DevicePtr := Nat

/-- What the service asks of the system and of its memory. -/
inductive Op
  /-- `hw_get_module(LED_HARDWARE_MODULE_ID, ..)`. -/
  | hwGetModule
  /-- `malloc` and `memset` of a device: its `fd` is 0. -/
  | malloc
  | «open» (path : String)
  | setFd (dev : DevicePtr) (fd : Int32)
  | getFd (dev : DevicePtr)
  | setLedDevice (dev : DevicePtr)
  /-- The pointer is compared with `NULL`. -/
  | getLedDevice
  /-- The pointer is loaded again and followed. -/
  | derefLedDevice
  | ioctl (fd request : Int32) (led : Option Int32)
  | write (fd : Int32) (text : String)
  | sleep (seconds : Nat)

/-- The answers. -/
abbrev Op.Answer : Op → Type
  | .hwGetModule => Bool
  | .malloc => DevicePtr
  | .open _ => Int32
  | .setFd _ _ => Unit
  | .getFd _ => Int32
  | .setLedDevice _ => Unit
  | .getLedDevice => Option DevicePtr
  | .derefLedDevice => DevicePtr
  | .ioctl _ _ _ => Int32
  | .write _ _ => Int32
  | .sleep _ => Unit

/-- The system under the service. -/
abbrev system : Signature := ⟨Op, Op.Answer⟩

/-- Ask the system for an operation. -/
abbrev perform (op : Op) : Program system op.Answer := .ask op .done

/-! ## The stubs -/

/-- What a compiler is free to choose. Only calls of other functions keep their places. -/
structure Compiled where
  /-- In `led.dma6410xp.c` the descriptor is stored before the pointer, as it is written. -/
  descriptorFirst : Bool
  /-- The native methods follow the pointer that they have compared, and do not load it again. -/
  loadsOnce : Bool
  deriving DecidableEq

/-- What a stub library provides. -/
structure LedModule where
  led_device_open : Program system Int32
  led_on : DevicePtr → Int32 → Program system Int32
  led_off : DevicePtr → Int32 → Program system Int32

/-- The file is opened, and then the device is published. -/
def openThenPublish (compiled : Compiled) (path : String) : Program system Int32 := do
  let dev ← perform .malloc
  let fd ← perform (.open path)
  -- no call stands between the two stores
  if compiled.descriptorFirst then do
    perform (.setFd dev fd)
    perform (.setLedDevice dev)
    pure 0
  else do
    perform (.setLedDevice dev)
    perform (.setFd dev fd)
    pure 0

/-- The device is published, and then the file is opened. -/
def publishThenOpen (path : String) : Program system Int32 := do
  let dev ← perform .malloc
  perform (.setLedDevice dev)
  let fd ← perform (.open path)
  perform (.setFd dev fd)
  pure 0

namespace Goldfish

/-- `led_device_open` of `led.cpp`. -/
def led_device_open : Program system Int32 := publishThenOpen "/dev/cdata-test"

/-- The request, which is the same for every LED. -/
def control (dev : DevicePtr) (_ : Int32) : Program system Int32 := do
  let fd ← perform (.getFd dev)
  let _ ← perform (.ioctl fd 0 none)
  perform (.sleep 30)
  pure 0

/-- `led_on` of `led.cpp`. -/
def led_on : DevicePtr → Int32 → Program system Int32 := control

/-- `led_off` of `led.cpp`. -/
def led_off : DevicePtr → Int32 → Program system Int32 := control

/-- `led.cpp`. -/
def ledModule : LedModule := ⟨led_device_open, led_on, led_off⟩

end Goldfish

namespace Dma6410xp

/-- `led_device_open` of `led.dma6410xp.c`. -/
def led_device_open (compiled : Compiled) : Program system Int32 :=
  openThenPublish compiled "/dev/led"

/-- The request of `led_on` and `led_off` for the two LEDs of the board. -/
def control (request : Int32) (dev : DevicePtr) (led : Int32) : Program system Int32 := do
  let fd ← perform (.getFd dev)
  if led = 1 ∨ led = 2 then do
    let _ ← perform (.ioctl fd request (some led))
    pure 0
  else pure (-1)

/-- `led_on` of `led.dma6410xp.c`. -/
def led_on : DevicePtr → Int32 → Program system Int32 := control 1

/-- `led_off` of `led.dma6410xp.c`. -/
def led_off : DevicePtr → Int32 → Program system Int32 := control 2

/-- `led.dma6410xp.c`. -/
def ledModule (compiled : Compiled) : LedModule := ⟨led_device_open compiled, led_on, led_off⟩

end Dma6410xp

namespace Omap3

/-- `led_device_open` of `led.omap3.c`. -/
def led_device_open : Program system Int32 := publishThenOpen "/sys/class/leds/led3/brightness"

/-- What `led_on` and `led_off` write. -/
def control (text : String) (dev : DevicePtr) (_ : Int32) : Program system Int32 := do
  let fd ← perform (.getFd dev)
  let _ ← perform (.write fd text)
  pure 0

/-- `led_on` of `led.omap3.c`. -/
def led_on : DevicePtr → Int32 → Program system Int32 := control "1"

/-- `led_off` of `led.omap3.c`. -/
def led_off : DevicePtr → Int32 → Program system Int32 := control "0"

/-- `led.omap3.c`. -/
def ledModule : LedModule := ⟨led_device_open, led_on, led_off⟩

end Omap3

/-- The boards with a stub. -/
inductive Board
  | goldfish
  | dma6410xp
  | omap3
  deriving DecidableEq

/-- The stub of a board. -/
def Board.ledModule (compiled : Compiled) : Board → LedModule
  | .goldfish => Goldfish.ledModule
  | .dma6410xp => Dma6410xp.ledModule compiled
  | .omap3 => Omap3.ledModule

/-! ## The native methods -/

/-- An integer as the native methods return it: a `jboolean`, of which Java sees whether it is 0. -/
def jboolean (value : Int32) : Bool := value.toUInt32.toUInt8 ≠ 0

section Native

variable (compiled : Compiled) (stub : LedModule)

/-- `mokoid_init`. -/
def mokoid_init : Program system Bool := do
  if ← perform .hwGetModule then
    let result ← stub.led_device_open
    if result = 0 then pure (jboolean 0) else pure (jboolean (-1))
  else pure (jboolean (-1))

/-- `mokoid_setDeviceName`. -/
def mokoid_setDeviceName : Program system Bool := do
  match ← perform .getLedDevice with
  | none => pure (jboolean (-1))
  | some _ => pure (jboolean 0)

/-- A function of the device, when there is one. -/
def withDevice (function : DevicePtr → Program system Int32) : Program system Bool := do
  match ← perform .getLedDevice with
  | none => pure (jboolean (-1))
  | some dev => do
    let dev ← if compiled.loadsOnce then pure dev else perform .derefLedDevice
    let result ← function dev
    pure (jboolean result)

/-- `mokoid_setOn`. -/
def mokoid_setOn (led : Int32) : Program system Bool :=
  withDevice compiled fun dev => stub.led_on dev led

/-- `mokoid_setOff`. -/
def mokoid_setOff (led : Int32) : Program system Bool :=
  withDevice compiled fun dev => stub.led_off dev led

/-- What a thread of the process may do: make a service object, or call a method of one. -/
inductive Call
  /-- `LedService()`, which calls `_init`. -/
  | new
  | setOn (led : Int32)
  | setOff (led : Int32)
  | setDeviceName (name : String)

/-- Every call has a truth value; that of `_init` is not used. -/
abbrev ledService : Signature := ⟨Call, fun _ => Bool⟩

/-- `LedService` of Java. -/
def LedService.invoke : Call → Program system Bool
  | .new => mokoid_init stub
  | .setOn led => mokoid_setOn compiled stub led
  | .setOff led => mokoid_setOff compiled stub led
  | .setDeviceName _ => mokoid_setDeviceName

end Native

/-! ## The memory of the process -/

/-- The devices and the pointer to one of them. -/
structure Memory where
  /-- The field `fd` of each device. -/
  fds : List Int32
  sLedDevice : Option DevicePtr
  deriving DecidableEq

/-- How the operations read and change the memory when threads take turns operation by operation,
as on one processor: a store is seen by every thread from then on. Whatever else the system does,
any answer is possible. -/
def memoryWorld : World system Memory
  | state, .malloc, dev, after => dev = state.fds.length ∧ after = { state with fds := state.fds ++ [0] }
  | state, .setFd dev fd, _, after => after = { state with fds := state.fds.set dev fd }
  | state, .getFd dev, fd, after => state.fds[dev]? = some fd ∧ after = state
  | state, .setLedDevice dev, _, after => after = { state with sLedDevice := some dev }
  | state, .getLedDevice, shared, after => shared = state.sLedDevice ∧ after = state
  | state, .derefLedDevice, dev, after => state.sLedDevice = some dev ∧ after = state
  | state, .hwGetModule, _, after => after = state
  | state, .open _, _, after => after = state
  | state, .ioctl _ _ _, _, after => after = state
  | state, .write _ _, _, after => after = state
  | state, .sleep _, _, after => after = state

/-- The process in the beginning. -/
def Memory.initial : Memory := ⟨[], none⟩

end Mokoid
