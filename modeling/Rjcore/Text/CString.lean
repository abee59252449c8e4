import Mathlib.Data.List.Infix
import Mathlib.Data.List.TakeWhile

/-!
# C strings

Byte strings as the C library reads and writes them. A buffer is a list of bytes and the
string it holds ends at its first NUL (`cstr`). The functions below follow the library
functions of the same names on strings without a NUL; bounded printing and reading are
truncation, so their length facts are the whole of their memory safety.
-/

namespace CText

/-- Raw bytes: file contents, command output, buffers. -/
abbrev Bytes : Type := List UInt8

/-- The bytes of an ASCII literal. -/
def ascii (literal : String) : Bytes := literal.toList.map fun char => char.val.toUInt8

/-- The byte that ends a C string. -/
def nul : UInt8 := 0

/-- The byte that ends a line. -/
def newline : UInt8 := 10

/-- The string a buffer holds: its bytes up to the first NUL. -/
def cstr (buffer : Bytes) : Bytes := buffer.takeWhile (· ≠ nul)

/-- A fresh buffer, `char buffer[size] = { 0 }`. -/
def zeros (size : Nat) : Bytes := List.replicate size nul

/-- Store bytes at an offset of a buffer. Storing past its end lengthens the list, so a
buffer that keeps its length was written inside its bounds. -/
def overwrite (buffer : Bytes) (offset : Nat) (data : Bytes) : Bytes :=
  buffer.take offset ++ data ++ buffer.drop (offset + data.length)

/-- No byte of a C string is NUL. -/
theorem cstr_noNul (buffer : Bytes) : nul ∉ cstr buffer := by
  intro member
  simpa using List.mem_takeWhile_imp member

/-- A string without a NUL is read whole. -/
theorem cstr_of_noNul {text : Bytes} (clean : nul ∉ text) : cstr text = text := by
  apply List.takeWhile_eq_self_iff.mpr
  intro byte member
  simpa using fun same : byte = nul => clean (same ▸ member)

/-- Text without a NUL is read before what follows it. -/
theorem cstr_append_of_noNul {text : Bytes} (clean : nul ∉ text) (rest : Bytes) :
    cstr (text ++ rest) = text ++ cstr rest := by
  unfold cstr
  rw [List.takeWhile_append_of_pos]
  intro byte member
  simpa using fun same : byte = nul => clean (same ▸ member)

/-- Text followed by a NUL is read up to its own first NUL. -/
theorem cstr_append_nul (text rest : Bytes) : cstr (text ++ nul :: rest) = cstr text := by
  induction text with
  | nil => rfl
  | cons byte text ih =>
    unfold cstr at ih ⊢
    rw [List.cons_append, List.takeWhile_cons, List.takeWhile_cons, ih]

/-- Zeros after a text do not change it. -/
theorem cstr_append_zeros (text : Bytes) (count : Nat) :
    cstr (text ++ List.replicate count nul) = cstr text := by
  cases count with
  | zero => rw [List.replicate_zero, List.append_nil]
  | succ count => exact cstr_append_nul text _

/-- A C string is the front of its buffer. -/
theorem take_cstr_length (buffer : Bytes) : buffer.take (cstr buffer).length = cstr buffer :=
  (List.prefix_iff_eq_take.mp (List.takeWhile_prefix _)).symm

/-- The end of a C string is a NUL or the end of the buffer. -/
theorem cstr_drop_length (buffer : Bytes) : cstr (buffer.drop (cstr buffer).length) = [] := by
  have whole := cstr_append_of_noNul (cstr_noNul buffer) (buffer.drop (cstr buffer).length)
  have parts : cstr buffer ++ buffer.drop (cstr buffer).length = buffer :=
    List.prefix_iff_eq_append.mp (List.takeWhile_prefix _)
  rw [parts] at whole
  exact List.self_eq_append_right.mp whole

/-- A C string is no longer than its buffer. -/
theorem cstr_length_le (buffer : Bytes) : (cstr buffer).length ≤ buffer.length :=
  (List.takeWhile_prefix _).length_le

/-- The empty buffer holds the empty string. -/
@[simp] theorem cstr_nil : cstr [] = [] := rfl

/-- A zero-filled buffer holds the empty string. -/
@[simp] theorem cstr_zeros (size : Nat) : cstr (zeros size) = [] := by
  cases size <;> rfl

/-- A C string is empty exactly when its buffer is, or starts with a NUL. -/
theorem cstr_eq_nil_iff (buffer : Bytes) : cstr buffer = [] ↔ buffer.head?.getD nul = nul := by
  cases buffer with
  | nil => simp
  | cons byte rest =>
    by_cases zero : byte = nul <;> simp [cstr, zero]

/-- A NUL stored inside a string ends it there. -/
theorem cstr_set_nul {buffer : Bytes} {position : Nat} (inside : position < (cstr buffer).length) :
    cstr (buffer.set position nul) = (cstr buffer).take position := by
  have parts : cstr buffer ++ buffer.drop (cstr buffer).length = buffer :=
    List.prefix_iff_eq_append.mp (List.takeWhile_prefix _)
  have stored := List.set_append_left position nul inside
    (t := buffer.drop (cstr buffer).length)
  rw [parts] at stored
  have clean : nul ∉ (cstr buffer).take position := fun member =>
    cstr_noNul buffer (List.mem_of_mem_take member)
  rw [stored, List.set_eq_take_append_cons_drop, if_pos inside, List.append_assoc, List.cons_append,
    cstr_append_nul, cstr_of_noNul clean]

/-- A store inside the bounds keeps the length of the buffer. -/
theorem overwrite_length {buffer data : Bytes} {offset : Nat}
    (inside : offset + data.length ≤ buffer.length) :
    (overwrite buffer offset data).length = buffer.length := by
  simp only [overwrite, List.length_append, List.length_take, List.length_drop]
  omega

/-- A store leaves what stands before it alone. -/
theorem take_overwrite {buffer data : Bytes} {offset : Nat} (inside : offset ≤ buffer.length) :
    (overwrite buffer offset data).take offset = buffer.take offset := by
  unfold overwrite
  rw [List.append_assoc, List.take_left' (List.length_take_of_le inside)]

/-- `isspace` in the C locale. -/
def isSpace (byte : UInt8) : Bool := byte = 32 || (9 ≤ byte && byte ≤ 13)

/-- `isdigit`. -/
def isDigit (byte : UInt8) : Bool := 48 ≤ byte && byte ≤ 57

/-- `toupper` in the C locale. -/
def toUpper (byte : UInt8) : UInt8 := if 97 ≤ byte && byte ≤ 122 then byte - 32 else byte

/-- `snprintf(buffer, size, ..)`: the string left in the buffer. -/
def snprintf (size : Nat) (printed : Bytes) : Bytes := printed.take (size - 1)

/-- `snprintf` leaves everything exactly when the text and its NUL fit. -/
theorem snprintf_eq_self {size : Nat} {printed : Bytes} (fits : printed.length < size) :
    snprintf size printed = printed :=
  List.take_of_length_le (by omega)

/-- The decimal digits of a natural number. -/
def decimalNat (value : Nat) : Bytes := (Nat.toDigits 10 value).map fun char => char.val.toUInt8

/-- `%d`. -/
def decimal (value : Int) : Bytes :=
  if value < 0 then 45 :: decimalNat value.natAbs else decimalNat value.natAbs

/-- `%08lx`: lower-case hexadecimal with at least eight digits. -/
def hex8 (value : Nat) : Bytes :=
  let digits := (Nat.toDigits 16 value).map fun char => char.val.toUInt8
  List.replicate (8 - digits.length) 48 ++ digits

/-- The value of a run of decimal digits. -/
def digitsValue (digits : Bytes) : Nat :=
  digits.foldl (fun value digit => 10 * value + (digit.toNat - 48)) 0

/-- An optional sign in front of a number, as `strtol` and `strtod` read it. -/
def takeSign : Bytes → Bool × Bytes
  | 45 :: rest => (true, rest)
  | 43 :: rest => (false, rest)
  | text => (false, text)

/-- `atoi` on numbers that fit an `int`. -/
def atoi (text : Bytes) : Int :=
  let (negative, digits) := takeSign (text.dropWhile isSpace)
  let magnitude : Int := digitsValue (digits.takeWhile isDigit)
  if negative then -magnitude else magnitude

/-- The exponent part of a decimal number, zero when there is none. -/
def takeExponent : Bytes → Int
  | mark :: rest =>
    if mark = 101 || mark = 69 then
      let (negative, digits) := takeSign rest
      let magnitude : Int := digitsValue (digits.takeWhile isDigit)
      if negative then -magnitude else magnitude
    else 0
  | [] => 0

/-- `atof` on decimal numbers, before rounding to a double: an optional sign, digits, an
optional fraction and an optional exponent. -/
def atof (text : Bytes) : Rat :=
  let (negative, text) := takeSign (text.dropWhile isSpace)
  let whole := text.takeWhile isDigit
  let after := text.dropWhile isDigit
  let (fraction, after) : Bytes × Bytes :=
    match after with
    | 46 :: rest => (rest.takeWhile isDigit, rest.dropWhile isDigit)
    | _ => ([], after)
  let magnitude : Rat := digitsValue (whole ++ fraction) * 10 ^ (takeExponent after - fraction.length)
  if negative then -magnitude else magnitude

/-- `strncmp(left, right, count) == 0` on strings without a NUL. -/
def strncmpEq (count : Nat) (left right : Bytes) : Bool := left.take count = right.take count

/-- `strstr(text, pattern) != NULL`. -/
def strstr (text pattern : Bytes) : Bool := decide (pattern <:+: text)

/-- `sscanf(text, "prefix%s", ..)`: the literal prefix, then the next blank-delimited word;
nothing is stored when the prefix differs or no word follows. -/
def sscanfWord (literal text : Bytes) : Option Bytes :=
  if literal <+: text then
    let word := ((text.drop literal.length).dropWhile isSpace).takeWhile fun byte => !isSpace byte
    if word = [] then none else some word
  else none

/-- `sscanf(text, "%[^stop]", ..)`: the bytes before the first `stop`; nothing is stored
when there are none. -/
def sscanfUntil (stop : UInt8) (text : Bytes) : Option Bytes :=
  let word := text.takeWhile (· ≠ stop)
  if word = [] then none else some word

/-- The bytes up to and including the first newline. -/
def takeLine : Bytes → Bytes
  | [] => []
  | byte :: rest => if byte = newline then [byte] else byte :: takeLine rest

/-- `fgets(buffer, size, stream)`: the bytes stored before the NUL and what the stream
still holds, or nothing at the end of the stream. -/
def fgets (size : Nat) (stream : Bytes) : Option (Bytes × Bytes) :=
  if stream = [] then none
  else
    let line := (takeLine stream).take (size - 1)
    some (line, stream.drop line.length)

/-- A line is the front of its stream. -/
theorem takeLine_isFront (stream : Bytes) : takeLine stream <+: stream := by
  induction stream with
  | nil => exact List.prefix_rfl
  | cons byte rest ih =>
    simp only [takeLine]
    split
    · exact ⟨rest, rfl⟩
    · exact List.cons_prefix_cons.mpr ⟨rfl, ih⟩

/-- The line `fgets` stores and the rest it leaves are the stream. -/
theorem fgets_split {size : Nat} {stream line rest : Bytes}
    (read : fgets size stream = some (line, rest)) :
    stream = line ++ rest ∧ line.length ≤ size - 1 := by
  unfold fgets at read
  split at read
  · contradiction
  · simp only [Option.some.injEq, Prod.mk.injEq] at read
    obtain ⟨rfl, rfl⟩ := read
    have front := (List.take_prefix (size - 1) (takeLine stream)).trans (takeLine_isFront stream)
    exact ⟨(List.prefix_iff_eq_append.mp front).symm, List.length_take_le _ _⟩

/-- Where more than the NUL fits, the line begins with the first byte of the stream. -/
theorem fgets_cons {size : Nat} (byte : UInt8) (stream : Bytes) (room : 1 < size) :
    ∃ line rest, fgets size (byte :: stream) = some (byte :: line, rest) := by
  obtain ⟨tail, line⟩ : ∃ tail, takeLine (byte :: stream) = byte :: tail := by
    unfold takeLine
    split <;> exact ⟨_, rfl⟩
  obtain ⟨count, rfl⟩ : ∃ count, size = count + 2 := ⟨size - 2, by omega⟩
  refine ⟨tail.take count, (byte :: stream).drop (byte :: tail.take count).length, ?_⟩
  simp only [fgets, line, List.cons_ne_nil, ↓reduceIte, Nat.add_succ_sub_one, List.take_succ_cons]

/-- `fread(.., 1, count, file)` at a position of a file. -/
def fread (file : Bytes) (position count : Nat) : Bytes := (file.drop position).take count

/-- `fread` delivers what lies between the position and the end of the file. -/
theorem fread_length (file : Bytes) (position count : Nat) :
    (fread file position count).length = min count (file.length - position) := by
  simp [fread]

end CText
