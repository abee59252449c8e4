import Rjcore.Binder.Interface
import Rjcore.Text.Shell

/-!
# The operating system under the service

The operations the service performs and the answers each may receive. Whatever the system
does is an answer: whether a path exists, what a command prints, how it ends. What depends
on the compiler or on libraries outside the repository, but not on the moment, is a
`Platform`.

The unbounded writes of the code into fixed buffers are operations as well. They have no
effect: the model continues as if the buffer were large enough, so that every such write
can be compared with its buffer.
-/

namespace Rjcore

open Interaction CText

/-- A size of `SIZE_1K` bytes. -/
def size1K : Nat := 1024

/-- A size of `SIZE_1K_HALF` bytes. -/
def size1KHalf : Nat := 512

/-- What the build and the libraries decide. -/
structure Platform where
  /-- Plain `char` is signed. -/
  charSigned : Bool
  /-- The width of `long` and of `size_t`. -/
  wordBits : Nat
  /-- 32-bit and 64-bit builds are supported. -/
  wordBits_eq : wordBits = 32 ∨ wordBits = 64
  /-- `String16(const char*)`. -/
  string16 : Bytes → String16
  /-- ASCII text is widened byte by byte. -/
  string16_ascii : ∀ text : Bytes, (∀ byte ∈ text, byte < 128) →
    string16 text = text.map UInt8.toUInt16
  /-- The bytes of `String8(String16)`. -/
  string8 : String16 → Bytes
  /-- ASCII text is narrowed unit by unit. -/
  string8_ascii : ∀ text : String16, (∀ unit ∈ text, unit < 128) →
    string8 text = text.map UInt16.toUInt8
  /-- `inet_pton(AF_INET, ..) == 1`. -/
  inetPton4 : Bytes → Bool
  /-- `inet_pton(AF_INET6, ..) == 1`. -/
  inetPton6 : Bytes → Bool
  /-- An accepted address has 1 to 45 hexadecimal digits, points and colons. -/
  inetPton_address : ∀ text, inetPton4 text = true ∨ inetPton6 text = true →
    text ≠ [] ∧ text.length ≤ 45 ∧ ∀ byte ∈ text, byte ∈ ascii "0123456789ABCDEFabcdef.:"
  /-- `%.2f` of a size divided by a number of seconds, as doubles. -/
  printRatio : Rat → Int → Bytes
  /-- `%-4.1Lf` of a size, as a `long double`. -/
  printSize : Rat → Bytes

/-- The value of a byte read through signed `char`. -/
theorem toInt8_toInt (byte : UInt8) :
    byte.toInt8.toInt = if byte.toNat < 128 then (byte.toNat : Int) else byte.toNat - 256 := by
  change byte.toBitVec.toInt = _
  rw [BitVec.toInt_eq_toNat_cond]
  change (if 2 * byte.toNat < 2 ^ 8 then (byte.toNat : Int) else byte.toNat - (2 ^ 8 : Nat)) = _
  split <;> split <;> omega

namespace Platform

variable (platform : Platform)

/-- The value of a byte read through plain `char`. -/
def charValue (byte : UInt8) : Int := if platform.charSigned then byte.toInt8.toInt else byte.toNat

/-- The C string handed to the system for a string of a client: `String8(text).string()`. -/
def string (text : String16) : Bytes := cstr (platform.string8 text)

/-- The value of a byte below 128 is the byte; any other is negative where `char` is signed. -/
theorem charValue_eq (byte : UInt8) :
    platform.charValue byte =
      if platform.charSigned = true ∧ 128 ≤ byte.toNat then (byte.toNat : Int) - 256
      else byte.toNat := by
  unfold charValue
  cases platform.charSigned with
  | false => simp
  | true =>
    simp only [↓reduceIte, true_and, toInt8_toInt]
    split <;> split <;> omega

end Platform

/-- A 32-bit platform that knows text of one byte per character and a single address. -/
def Platform.plain (charSigned : Bool) : Platform where
  charSigned := charSigned
  wordBits := 32
  wordBits_eq := .inl rfl
  string16 text := text.map UInt8.toUInt16
  string16_ascii _ _ := rfl
  string8 text := text.map UInt16.toUInt8
  string8_ascii _ _ := rfl
  inetPton4 text := text = ascii "10.0.0.1"
  inetPton6 _ := false
  inetPton_address text accepted := by
    have address : text = ascii "10.0.0.1" := by simpa using accepted
    subst address
    exact ⟨by decide, by decide, List.forall_iff_forall_mem.mp (by decide)⟩
  printRatio size seconds :=
    let hundredths := (size / seconds * 100 + 1 / 2).floor
    decimal (hundredths / 100) ++ ascii "." ++ decimal (hundredths / 10 % 10) ++
      decimal (hundredths % 10)
  printSize size :=
    let tenths := (size * 10 + 1 / 2).floor
    decimal (tenths / 10) ++ ascii "." ++ decimal (tenths % 10)

/-! ## Commands -/

/-- A part of a command line. -/
inductive Part
  /-- Text of the program. -/
  | text (bytes : Bytes)
  /-- A string that a client supplied. -/
  | client (bytes : Bytes)
  /-- A number or a string that the service obtained itself. -/
  | value (bytes : Bytes)
  deriving DecidableEq

namespace Part

/-- The bytes of a part. -/
def bytes : Part → Bytes
  | .text bytes | .client bytes | .value bytes => bytes

/-- What the part is to the shell as the program means it. -/
def piece : Part → Shell.Piece
  | .text bytes | .value bytes => .text bytes
  | .client bytes => .data bytes

/-- Put the arguments in place of the conversions of a format string, text having begun. -/
def expand (begun : Bytes) : Bytes → List Part → List Part
  | 37 :: _ :: rest, arg :: args => .text begun :: arg :: expand [] rest args
  | byte :: rest, args => expand (begun ++ [byte]) rest args
  | [], _ => [.text begun]

end Part

/-- A command line printed into a buffer. -/
structure Command where
  /-- What is printed. -/
  parts : List Part
  /-- The size of the buffer. -/
  size : Nat
  deriving DecidableEq

namespace Command

/-- `snprintf(cmd, size, format, args..)`. -/
def printf (size : Nat) (format : String) (args : List Part) : Command :=
  ⟨Part.expand [] (ascii format) args, size⟩

/-- A command that is a string of the program. -/
def literal (text : String) : Command := ⟨[.text (ascii text)], (ascii text).length + 1⟩

/-- The whole of what is printed. -/
def printed (command : Command) : Bytes := command.parts.flatMap Part.bytes

/-- The command line as it was left in the buffer. -/
def line (command : Command) : Bytes := snprintf command.size command.printed

/-- The command line and its NUL fit the buffer. -/
def Fits (command : Command) : Prop := command.printed.length < command.size

instance (command : Command) : Decidable command.Fits := Nat.decLt _ _

/-- The command line as it is meant. -/
def template (command : Command) : Shell.Template := command.parts.map Part.piece

/-- A command line that fits is handed over whole. -/
theorem line_of_fits {command : Command} (fits : command.Fits) : command.line = command.printed :=
  snprintf_eq_self fits

/-- The first byte of a command line that begins with text of the program. -/
theorem line_head? {command : Command} {byte : UInt8} {bytes : Bytes} {rest : List Part}
    (front : command.parts = .text (byte :: bytes) :: rest) (room : 1 < command.size) :
    command.line.head? = some byte := by
  obtain ⟨count, size⟩ : ∃ count, command.size - 1 = count + 1 :=
    ⟨command.size - 2, by omega⟩
  rw [Command.line, Command.printed, front, snprintf, size]
  rfl

/-- A command line that begins with text of the program is not empty. -/
theorem line_ne_nil {command : Command} {byte : UInt8} {bytes : Bytes} {rest : List Part}
    (front : command.parts = .text (byte :: bytes) :: rest) (room : 1 < command.size) :
    command.line ≠ [] := by
  intro empty
  have first := line_head? front room
  rw [empty] at first
  contradiction

/-- A format without conversions is printed as it is. -/
theorem expand_text {format : Bytes} (clean : 37 ∉ format) (begun : Bytes) (args : List Part) :
    Part.expand begun format args = [.text (begun ++ format)] := by
  induction format generalizing begun with
  | nil => cases args <;> simp [Part.expand]
  | cons byte format ih =>
    rw [List.mem_cons, not_or] at clean
    rw [Part.expand, ih clean.2, List.append_assoc]
    · rfl
    · intros
      exact clean.1 (Eq.symm ‹byte = 37›)

/-- The first conversion of a format takes the first argument. -/
theorem expand_conversion {front : Bytes} (clean : 37 ∉ front) (begun : Bytes) (conversion : UInt8)
    (back : Bytes) (arg : Part) (args : List Part) :
    Part.expand begun (front ++ 37 :: conversion :: back) (arg :: args) =
      .text (begun ++ front) :: arg :: Part.expand [] back args := by
  induction front generalizing begun with
  | nil =>
    rw [List.nil_append, List.append_nil, Part.expand]
  | cons byte front ih =>
    rw [List.mem_cons, not_or] at clean
    rw [List.cons_append, Part.expand, ih clean.2, List.append_assoc]
    · rfl
    · intros
      exact clean.1 (Eq.symm ‹byte = 37›)

/-- Text that has begun stays in front of what is expanded. -/
theorem expand_front (byte : UInt8) (begun format : Bytes) (args : List Part) :
    ∃ bytes rest, Part.expand (byte :: begun) format args = .text (byte :: bytes) :: rest := by
  induction format generalizing begun with
  | nil =>
    refine ⟨begun, [], ?_⟩
    cases args <;> rfl
  | cons next format ih =>
    unfold Part.expand
    split
    · exact ⟨begun, _, rfl⟩
    · rename_i same _
      cases same
      exact ih (begun ++ [next])
    · contradiction

/-- A command line that is printed by a format that begins with text is not empty. -/
theorem printf_line_ne_nil {size : Nat} {format : String} {args : List Part} {byte : UInt8}
    {text : Bytes} (front : ascii format = byte :: text) (isText : byte ≠ 37) (room : 1 < size) :
    (printf size format args).line ≠ [] := by
  have begins : Part.expand [] (ascii format) args = Part.expand [byte] text args := by
    rw [front, Part.expand]
    · rfl
    · intros
      contradiction
  obtain ⟨bytes, rest, parts⟩ := expand_front byte [] text args
  exact line_ne_nil (begins.trans parts) room

end Command

/-! ## Operations -/

/-- A file opened for reading. -/
structure File where
  /-- Its content. -/
  content : Bytes
  /-- `fseek` succeeds. -/
  seekable : Bool

/-- `sighandler_t`: what a process does about a signal. -/
inductive Disposition
  | default
  | ignored
  | handler (address : Nat)
  deriving DecidableEq

/-- How `system()` ended. -/
inductive WaitStatus
  | exited (code : UInt8)
  | signaled (signal : Fin 126) (core : Bool)
  | failed
  deriving DecidableEq

/-- The value `system()` returns: an exit code stands in the second byte, a signal in the
lower bits of the first. -/
def WaitStatus.value : WaitStatus → Int
  | .exited code => 256 * code.toNat
  | .signaled signal core => signal.val + 1 + if core then 128 else 0
  | .failed => -1

/-- The value of a system property. -/
structure PropertyValue where
  /-- Its text, empty when the property is not set. -/
  text : Bytes
  /-- It is shorter than `PROPERTY_VALUE_MAX`. -/
  bounded : text.length ≤ 91
  /-- It is a C string. -/
  clean : nul ∉ text

/-- `RKNAND_SYS_STORGAE`. -/
structure RknandSysStorage where
  tag : UInt32
  len : UInt32
  data : Vector UInt8 512
  deriving DecidableEq

/-- The requests of the vendor sector driver. -/
inductive Ioctl
  | rknandGetVendorSector0
  | rknandStoreVendorSector0
  deriving DecidableEq

/-- The locks of the service. -/
inductive Mutex
  | sLockLog
  | sNetLock
  deriving DecidableEq

/-- What the service asks of the system. -/
inductive Op
  | access (path : Bytes)
  | opendir (path : Bytes)
  | fopen (path mode : Bytes)
  | fclose
  | popen (command : Command)
  | pclose
  | signal (disposition : Disposition)
  | system (command : Command)
  | propertyGet (key : Bytes)
  | time
  | statfs (path : Bytes)
  | open (path : Bytes)
  | close
  | ioctl (request : Ioctl) (sysData : RknandSysStorage)
  | sync
  | lock (mutex : Mutex)
  | unlock (mutex : Mutex)
  /-- The stack holds whatever it held where a variable is not initialized. -/
  | uninitialized
  /-- So many bytes are written into a buffer of some capacity without a bound. -/
  | write (capacity used : Nat)
  deriving DecidableEq

/-- What the system may answer. -/
abbrev Op.Answer : Op → Type
  /- `access(path, F_OK) == 0`. -/
  | .access _ => Bool
  /- `opendir(path) != NULL`. -/
  | .opendir _ => Bool
  | .fopen _ _ => Option File
  /- The output of the command, unless it could not be started. -/
  | .popen _ => Option Bytes
  | .signal _ => Disposition
  | .system _ => WaitStatus
  | .propertyGet _ => PropertyValue
  | .time => Int
  /- The number of blocks and their size. -/
  | .statfs _ => Option (Nat × Nat)
  /- `open(path) >= 0`. -/
  | .open _ => Bool
  /- The structure as the driver leaves it, unless the request failed. -/
  | .ioctl _ _ => Option RknandSysStorage
  | .uninitialized => Vector UInt8 512
  | .fclose | .pclose | .close | .sync | .lock _ | .unlock _ | .write _ _ => Unit

/-- The operating system. -/
abbrev os : Signature := ⟨Op, Op.Answer⟩

/-- The value of a property that is not set. -/
def PropertyValue.unset : PropertyValue := ⟨[], by decide, by decide⟩

/-- The answers of an uneventful day: paths exist and name files, devices open, commands
succeed and print nothing, no property is set. -/
def Op.uneventful : (op : Op) → op.Answer
  | .access _ => true
  | .opendir _ => false
  | .fopen _ _ => some ⟨[], true⟩
  | .popen _ => some []
  | .signal _ => .default
  | .system _ => .exited 0
  | .propertyGet _ => .unset
  | .time => 0
  | .statfs _ => none
  | .open _ => true
  | .ioctl _ sysData => some sysData
  | .uninitialized => .replicate 512 0
  | .fclose | .pclose | .close | .sync | .lock _ | .unlock _ | .write _ _ => ()

/-- Every operation may be answered. -/
instance (op : Op) : Nonempty (os.Answer op) := ⟨op.uneventful⟩

/-- Ask the system for an operation. -/
abbrev perform (op : Op) : Program os op.Answer := .ask op .done

end Rjcore
