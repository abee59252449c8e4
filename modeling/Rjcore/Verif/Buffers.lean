import Rjcore.Verif.Bandwidth
import Rjcore.Verif.Decoding

/-!
# Unbounded writes

Five routines write into a fixed buffer without giving its size. Each write is an event
that carries the capacity and the number of bytes, the NUL included, so a run stays inside
its buffers when every such event does. For each routine this is a condition on what the
system answers (`Writer.Fits`); the list of the resolutions and the update flag always fit.
-/

namespace Rjcore

open Interaction CText RjcoreService

/-- Every unbounded write stays inside its buffer. -/
def InBounds (trace : List (Event os)) : Prop :=
  ∀ capacity used, ⟨.write capacity used, ()⟩ ∈ trace → used ≤ capacity

/-- The routines that write without a bound. -/
inductive Writer
  | getCpuInfo
  | getSupportResolution
  | getOtaResult
  | checkBandwidth_block (serverIp user code : String16)
  | construct

/-- The routine. -/
def Writer.program (platform : Platform) : Writer → Program os Unit
  | .getCpuInfo => do let _ ← RjcoreService.getCpuInfo platform; pure ()
  | .getSupportResolution => do let _ ← RjcoreService.getSupportResolution platform; pure ()
  | .getOtaResult => do let _ ← RjcoreService.getOtaResult; pure ()
  | .checkBandwidth_block serverIp user code => do
    let _ ← RjcoreService.checkBandwidth_block platform serverIp user code
    pure ()
  | .construct => do let _ ← RjcoreService.construct platform; pure ()

namespace Nand

variable (platform : Platform) (file : File)

/-- The records of which the constructor reads the header: each after the ones before it
were read. -/
def recordsRead : List (Nat × Nat) :=
  (0, serialNumberLen) ::
    if (text platform file 0 serialNumberLen).isSome then
      (productTypeOff, 1) ::
        if (text platform file productTypeOff 1).isSome then [(hardwareVersionOff, 1)] else []
    else []

/-- The length byte of a record is not negative, or little enough of the file follows. -/
def LengthFits (offset length : Nat) : Prop :=
  platform.charSigned = false ∨ (header file offset length).headD 0 < 128 ∨
    file.content.length ≤ offset + length + size1K

end Nand

/-- What `du` prints before the first `M` is shorter than the buffer. -/
def SizeFits (answer : Option Bytes) : Prop :=
  ((report size1K answer).takeWhile (· ≠ 77)).length < size1KHalf

/-- What the system answers fits the buffers of the routine. -/
def Writer.Fits (platform : Platform) : Writer → List (Event os) → Prop
  | .getCpuInfo, trace => ∀ command answer value, ⟨.popen command, answer⟩ ∈ trace →
    ⟨.propertyGet (ascii "ro.product.name"), value⟩ ∈ trace → value.text ≠ [] →
      (report size1K answer).length + value.text.length + 14 < size1K
  | .checkBandwidth_block _ _ _, trace =>
    ∀ answer, ⟨.popen sizeCommand, answer⟩ ∈ trace → SizeFits answer
  | .construct, trace => ∀ file, ⟨.fopen infoPath (ascii "r+"), some file⟩ ∈ trace →
    ∀ record ∈ Nand.recordsRead platform file,
      Nand.Reached file record.1 record.2 → Nand.LengthFits platform file record.1 record.2
  | .getSupportResolution, _ | .getOtaResult, _ => True

/-! ## Traces -/

/-- Two traces in order are in bounds when each is. -/
theorem inBounds_append (first second : List (Event os)) :
    InBounds (first ++ second) ↔ InBounds first ∧ InBounds second := by
  simp only [InBounds, List.mem_append]
  constructor
  · intro bounds
    exact ⟨fun capacity used member => bounds capacity used (.inl member),
      fun capacity used member => bounds capacity used (.inr member)⟩
  · rintro ⟨first, second⟩ capacity used (member | member)
    · exact first capacity used member
    · exact second capacity used member

/-- An event that is no write does not matter. -/
theorem inBounds_cons_of_ne {event : Event os} (trace : List (Event os))
    (other : ∀ capacity used, event ≠ ⟨.write capacity used, ()⟩) :
    InBounds (event :: trace) ↔ InBounds trace := by
  simp only [InBounds, List.mem_cons]
  constructor
  · intro bounds capacity used member
    exact bounds capacity used (.inr member)
  · rintro bounds capacity used (same | member)
    · exact absurd same.symm (other capacity used)
    · exact bounds capacity used member

/-- A write in front matters by its own size. -/
theorem inBounds_cons_write (capacity used : Nat) (trace : List (Event os)) :
    InBounds (⟨.write capacity used, ()⟩ :: trace) ↔ used ≤ capacity ∧ InBounds trace := by
  simp only [InBounds, List.mem_cons]
  constructor
  · intro bounds
    exact ⟨bounds capacity used (.inl rfl), fun capacity used member =>
      bounds capacity used (.inr member)⟩
  · rintro ⟨own, bounds⟩ capacity' used' (same | member)
    · simp only [Event.mk.injEq, Op.write.injEq] at same
      obtain ⟨⟨rfl, rfl⟩, _⟩ := same
      exact own
    · exact bounds capacity' used' member

/-- Nothing is written in an empty trace. -/
theorem inBounds_nil : InBounds [] := fun _ _ member => absurd member List.not_mem_nil

/-- Running a command for its output writes within bounds. -/
theorem inBounds_pipe (command : Command) (answer : Option Bytes) :
    InBounds (pipe command answer) := by
  cases answer with
  | none => simp [pipe, InBounds]
  | some output => simp [pipe, InBounds]

/-- A report is shorter than its buffer. -/
theorem report_length_lt {size : Nat} (answer : Option Bytes) (room : 0 < size) :
    (report size answer).length < size := by
  cases answer with
  | none => exact room
  | some output => exact capture_length_lt _ output room

/-- What follows a command run for its output decides whether the whole is in bounds. -/
theorem inBounds_pipe_append (command : Command) (answer : Option Bytes) (trace : List (Event os)) :
    InBounds (pipe command answer ++ trace) ↔ InBounds trace := by
  rw [inBounds_append]
  exact and_iff_right (inBounds_pipe command answer)

/-! ## Appending -/

/-- `strcat` writes the string, what it appends and a NUL. -/
theorem strcat_ensures (capacity : Nat) (res sub : Bytes) :
    (strcat capacity res sub).Ensures fun trace appended =>
      trace = [⟨.write capacity ((cstr res).length + sub.length + 1), ()⟩] ∧
        cstr appended = cstr res ++ cstr sub := by
  intro _
  refine ⟨rfl, ?_⟩
  rw [overwrite, take_cstr_length, List.append_assoc, List.append_assoc,
    cstr_append_of_noNul (cstr_noNul res)]
  exact congrArg (cstr res ++ ·) (cstr_append_nul sub _)

/-- Replacing a final newline keeps the length of the string. -/
theorem replaceNewline_length {res : Bytes} {byte : UInt8} (clean : byte ≠ nul) :
    (cstr (replaceNewline res byte)).length = (cstr res).length := by
  simp only [replaceNewline]
  split
  · rename_i last
    have parts : cstr res ++ res.drop (cstr res).length = res :=
      List.prefix_iff_eq_append.mp (List.takeWhile_prefix _)
    have some_text : cstr res ≠ [] := by
      intro blank
      rw [blank] at last
      rw [cstr_eq_nil_iff] at blank
      cases res with
      | nil => exact absurd last (by decide)
      | cons first rest => exact absurd (last.symm.trans blank) (by decide)
    have inside := List.length_pos_iff.mpr some_text
    have whole : res.set ((cstr res).length - 1) byte =
        (cstr res).set ((cstr res).length - 1) byte ++ res.drop (cstr res).length := by
      have replaced := List.set_append_left ((cstr res).length - 1) byte
        (show (cstr res).length - 1 < (cstr res).length by omega)
        (t := res.drop (cstr res).length)
      rwa [parts] at replaced
    have noNul : nul ∉ (cstr res).set ((cstr res).length - 1) byte := by
      intro member
      rcases List.mem_or_eq_of_mem_set member with before | same
      · exact cstr_noNul res before
      · exact clean same.symm
    rw [whole, cstr_append_of_noNul noNul, cstr_drop_length, List.append_nil, List.length_set]
  · rfl

/-- No letter is NUL in upper case. -/
theorem litConverBig_clean {text : Bytes} (clean : nul ∉ text) : nul ∉ litConverBig text := by
  intro member
  obtain ⟨byte, inText, upper⟩ := List.mem_map.mp member
  have nonzero : byte ≠ nul := fun same => clean (same ▸ inText)
  unfold toUpper at upper
  split at upper
  · rename_i letter
    simp only [Bool.and_eq_true, decide_eq_true_eq, UInt8.le_iff_toNat_le] at letter
    have difference := congrArg UInt8.toNat upper
    rw [UInt8.toNat_sub] at difference
    change 97 ≤ byte.toNat ∧ byte.toNat ≤ 122 at letter
    change (2 ^ 8 - 32 + byte.toNat) % 2 ^ 8 = 0 at difference
    omega
  · exact nonzero upper

/-- The two appends of `getCpuInfo`. -/
theorem getCpuInfo_writes (platform : Platform) :
    (RjcoreService.getCpuInfo platform).Ensures fun trace _ =>
      InBounds trace ↔ Writer.getCpuInfo.Fits platform trace := by
  have room : 0 < size1K := by decide
  refine Program.Ensures.bind (executeCmd_report room (by decide)) ?_
  rintro _ res ⟨_, answer, rfl, text⟩
  split
  · change InBounds (_ ++ []) ↔ _
    rw [inBounds_pipe_append]
    refine iff_of_true inBounds_nil fun command other value _ asked => ?_
    simp [pipe] at asked
  · intro sub
    change Program.Ensures (if sub.text = [] then _ else _) _
    split
    · rename_i unset
      change InBounds (_ ++ [⟨.propertyGet (ascii "ro.product.name"), sub⟩]) ↔ _
      rw [inBounds_pipe_append]
      refine iff_of_true (by simp [InBounds]) fun command other value _ asked named => ?_
      have same : value = sub := by simpa [pipe] using asked
      exact absurd (same ▸ unset) named
    · rename_i named
      refine Program.Ensures.bind (strcat_ensures _ _ _) ?_
      rintro _ first ⟨rfl, firstText⟩
      refine Program.Ensures.bind (strcat_ensures _ _ _) ?_
      rintro _ second ⟨rfl, _⟩
      have lengthCpu : (cstr (replaceNewline res 32)).length = (report size1K answer).length := by
        rw [replaceNewline_length (by decide), text]
      have lengthName : (litConverBig sub.text).length = sub.text.length := List.length_map _
      have lengthFirst : (cstr first).length = (report size1K answer).length + sub.text.length := by
        rw [firstText, cstr_of_noNul (litConverBig_clean sub.clean), List.length_append, lengthCpu,
          lengthName]
      have lengthSuffix : (ascii " CPU, @ 1.6GHz").length = 14 := by decide
      have bounds : ∀ command, InBounds (pipe command answer ++ [⟨.propertyGet (ascii "ro.product.name"), sub⟩,
          ⟨.write size1K ((cstr (replaceNewline res 32)).length +
            (litConverBig sub.text).length + 1), ()⟩,
          ⟨.write size1K ((cstr first).length + (ascii " CPU, @ 1.6GHz").length + 1), ()⟩]) ↔
          (report size1K answer).length + sub.text.length + 14 < size1K := by
        intro command
        rw [inBounds_pipe_append, inBounds_cons_of_ne _ (by simp), inBounds_cons_write,
          inBounds_cons_write, lengthCpu, lengthName, lengthFirst, lengthSuffix]
        simp only [inBounds_nil, and_true]
        omega
      refine (bounds _).trans ⟨?_, ?_⟩
      · intro fits command other value ran asked _
        have sameValue : value = sub := by simpa [pipe] using asked
        rcases List.mem_append.mp ran with inPipe | inRest
        · rwa [(popen_mem_pipe.mp inPipe).2, sameValue]
        · simp at inRest
      · intro fits
        exact fits _ answer sub (List.mem_append_left _ (popen_mem_pipe.mpr ⟨rfl, rfl⟩))
          (List.mem_append_right _ List.mem_cons_self) named

/-- An entry of the list of the resolutions has at most twelve bytes. -/
theorem resolution_length_le (i : Nat) :
    (snprintf 128 (ascii "\x7b" ++ resolutionIndex.getD i [] ++ ascii "\x7d,")).length ≤ 12 := by
  have names : ∀ name ∈ resolutionIndex, name.length ≤ 9 :=
    List.forall_iff_forall_mem.mp (by decide)
  have name : (resolutionIndex.getD i []).length ≤ 9 := by
    rw [List.getD_eq_getElem?_getD]
    cases found : resolutionIndex[i]? with
    | none => exact Nat.zero_le 9
    | some name => exact names name (List.mem_of_getElem? found)
  have braces : (ascii "\x7b").length = 1 ∧ (ascii "\x7d,").length = 2 := by decide
  simp only [snprintf, List.length_take, List.length_append]
  omega

/-- The loop over the resolutions writes at most twelve bytes and a NUL a turn. -/
theorem listResolutions_writes (support : Int32) (indices : List Nat) (res : Bytes)
    (room : (cstr res).length + 12 * indices.length < size1K) :
    (listResolutions support indices res).Ensures fun trace _ => InBounds trace := by
  induction indices generalizing res with
  | nil => exact inBounds_nil
  | cons i rest ih =>
    have short := resolution_length_le i
    rw [List.length_cons] at room
    unfold listResolutions
    split
    · refine Program.Ensures.bind (strcat_ensures _ _ _) ?_
      rintro _ appended ⟨rfl, text⟩
      have part := cstr_length_le (snprintf 128 (ascii "\x7b" ++ resolutionIndex.getD i [] ++
        ascii "\x7d,"))
      have grown := congrArg List.length text
      rw [List.length_append] at grown
      refine (ih appended (by omega)).mono fun trace _ bounds => ?_
      rw [List.singleton_append, inBounds_cons_write]
      exact ⟨by omega, bounds⟩
    · exact ih res (by omega)

/-- The list of the resolutions fits its buffer. -/
theorem getSupportResolution_writes (platform : Platform) :
    (RjcoreService.getSupportResolution platform).Ensures fun trace _ => InBounds trace := by
  have opens : ∀ opened trace, InBounds trace →
      InBounds (⟨.fopen lcdinfoPath (ascii "rb"), opened⟩ :: trace) :=
    fun opened trace => (inBounds_cons_of_ne trace (by simp)).mpr
  have closes : InBounds [⟨.fclose, ()⟩] := by simp [InBounds]
  intro opened
  cases opened with
  | none => exact opens _ _ inBounds_nil
  | some file =>
    simp only [Program.bind]
    split
    · exact fun _ => opens _ _ closes
    · refine Program.Ensures.bind (listResolutions_writes _ _ _ (by decide)) ?_
      exact fun trace res bounds _ => opens _ _ ((inBounds_append _ _).mpr ⟨bounds, closes⟩)

/-- A scanned word and what stands before it are no longer than the text. -/
theorem sscanfWord_length_le {literal text word : Bytes} (read : sscanfWord literal text = some word) :
    literal.length + word.length ≤ text.length := by
  simp only [sscanfWord] at read
  split at read
  · rename_i front
    have literalLength := front.length_le
    have wordLength := (List.takeWhile_sublist (fun byte => !isSpace byte)
      (l := (text.drop literal.length).dropWhile isSpace)).length_le
    have skipped := (List.dropWhile_sublist isSpace (l := text.drop literal.length)).length_le
    rw [List.length_drop] at skipped
    split at read
    · contradiction
    · cases read
      omega
  · contradiction

/-- The update flag fits its buffer: it is shorter than what the command printed. -/
theorem getOtaResult_writes :
    RjcoreService.getOtaResult.Ensures fun trace _ => InBounds trace := by
  have room : 0 < size1K := by decide
  refine Program.Ensures.bind (executeCmd_report room (by decide)) ?_
  rintro _ result ⟨_, answer, rfl, text⟩
  have short := report_length_lt answer room
  rw [← text] at short
  split
  · exact (inBounds_pipe_append _ answer []).mpr inBounds_nil
  · have scanned : (scanUpdateFlag (cstr result)).Ensures fun trace _ => InBounds trace := by
      unfold scanUpdateFlag
      split
      · exact inBounds_nil
      · rename_i word read
        have length := sscanfWord_length_le read
        exact fun _ => (inBounds_cons_write _ _ []).mpr ⟨by omega, inBounds_nil⟩
    refine Program.Ensures.bind scanned fun trace word bounds => ?_
    change InBounds (_ ++ (trace ++ []))
    rwa [inBounds_pipe_append, List.append_nil]

/-- A trace is in bounds when every size in it fits. -/
def BoundedBySizes (trace : List (Event os)) : Prop :=
  InBounds trace ↔ ∀ answer, ⟨.popen sizeCommand, answer⟩ ∈ trace → SizeFits answer

/-- Events that neither write nor measure. -/
def Neutral (trace : List (Event os)) : Prop :=
  InBounds trace ∧ ∀ answer, ⟨.popen sizeCommand, answer⟩ ∉ trace

/-- Neutral events around a trace do not matter. -/
theorem BoundedBySizes.around {before trace after : List (Event os)}
    (bounded : BoundedBySizes trace) (first : Neutral before) (last : Neutral after) :
    BoundedBySizes (before ++ (trace ++ after)) := by
  unfold BoundedBySizes at bounded ⊢
  rw [inBounds_append, inBounds_append, bounded]
  simp only [first.1, last.1, List.mem_append, first.2, last.2, true_and, and_true, false_or,
    or_false]

/-- The size is scanned into its buffer. -/
theorem scanSize_writes (text : Bytes) :
    (scanSize text).Ensures fun trace _ => (∀ answer, ⟨.popen sizeCommand, answer⟩ ∉ trace) ∧
      (InBounds trace ↔ (text.takeWhile (· ≠ 77)).length < size1KHalf) := by
  simp only [scanSize, sscanfUntil]
  by_cases blank : text.takeWhile (· ≠ 77) = []
  · rw [if_pos blank, blank]
    exact ⟨fun _ => List.not_mem_nil, iff_of_true inBounds_nil (by decide)⟩
  · rw [if_neg blank]
    refine fun _ => ⟨by simp, ?_⟩
    rw [inBounds_cons_write]
    exact and_iff_left inBounds_nil

/-- The measurement is bounded by what it prints. -/
theorem measureBandwidth_writes (platform : Platform) (t_start : Int) :
    (measureBandwidth platform t_start).Ensures fun trace _ => BoundedBySizes trace := by
  have room : 0 < size1K := by decide
  intro t_end
  change Program.Ensures (executeCmd sizeCommand _ _ >>= _) _
  refine Program.Ensures.bind (executeCmd_report room (by decide)) ?_
  rintro _ result ⟨_, answer, rfl, text⟩
  have timed : Neutral [⟨.time, t_end⟩] := by simp [Neutral, InBounds]
  have removed : (mySystem removeCommand).Ensures fun trace _ => Neutral trace := by
    refine (mySystem_ensures (by decide)).mono ?_
    rintro _ _ ⟨saved, status, restored, rfl, rfl⟩
    simp [Neutral, InBounds]
  have only : ∀ trace, (∀ other, ⟨.popen sizeCommand, other⟩ ∉ trace) →
      (InBounds trace ↔ SizeFits answer) → BoundedBySizes (pipe sizeCommand answer ++ trace) := by
    intro trace other bounds
    rw [BoundedBySizes, inBounds_pipe_append, bounds]
    simp only [List.mem_append, other, or_false, popen_mem_pipe, true_and, forall_eq]
  split
  · rename_i blank
    have fits : SizeFits answer := by
      rw [SizeFits, ← text, blank]
      decide
    have bounded := (only [] (fun _ => List.not_mem_nil) (iff_of_true inBounds_nil fits)).around
      timed ⟨inBounds_nil, fun _ => List.not_mem_nil⟩
    rw [List.append_nil] at bounded
    exact bounded
  · refine Program.Ensures.bind (scanSize_writes _) fun trace size scanned => ?_
    refine Program.Ensures.bind removed fun rest status neutral => ?_
    rw [text] at scanned
    have bounded := (only trace scanned.1 scanned.2).around timed neutral
    change BoundedBySizes (_ :: (_ ++ (trace ++ (rest ++ []))))
    rwa [List.append_nil, ← List.append_assoc]

/-- The call once its download is on the way is bounded by what the measurement prints. -/
theorem transfer_writes (platform : Platform) (t_start : Int) {command : Command}
    (other : command ≠ sizeCommand) (some_line : command.line ≠ []) :
    (do
      let _ ← executeCmd command (zeros size1K) size1K
      if ← perform (.access bandtmpfile) then measureBandwidth platform t_start
      else pure (utf16 "")).Ensures fun trace _ => BoundedBySizes trace := by
  have room : 0 < size1K := by decide
  refine Program.Ensures.bind (executeCmd_report room some_line) ?_
  rintro _ _ ⟨_, answer, rfl, _⟩ found
  have neutral : Neutral (pipe command answer ++ [⟨.access bandtmpfile, found⟩]) := by
    refine ⟨(inBounds_pipe_append _ _ _).mpr (by simp [InBounds]), fun size member => ?_⟩
    rcases List.mem_append.mp member with inPipe | asked
    · exact other (popen_mem_pipe.mp inPipe).1.symm
    · simp at asked
  cases found with
  | false => exact iff_of_true neutral.1 fun size member => absurd member (neutral.2 size)
  | true =>
    refine (measureBandwidth_writes platform t_start).mono fun trace _ bounded => ?_
    have around := bounded.around neutral ⟨inBounds_nil, fun _ => List.not_mem_nil⟩
    rw [List.append_nil, List.append_assoc] at around
    exact around

/-- The size of the downloaded file fits its buffer when what is printed before the first
`M` does. -/
theorem checkBandwidth_writes (platform : Platform) (serverIp user code : String16) :
    (RjcoreService.checkBandwidth_block platform serverIp user code).Ensures fun trace _ =>
      BoundedBySizes trace := by
  have unlocked : Neutral [⟨.unlock .sNetLock, ()⟩] := by simp [Neutral, InBounds]
  intro _
  change Program.Ensures ((if _ then _ else _) >>= _) _
  split
  · have nothing : BoundedBySizes [] :=
      iff_of_true inBounds_nil fun _ member => absurd member List.not_mem_nil
    have locked : Neutral [⟨.lock .sNetLock, ()⟩] := by simp [Neutral, InBounds]
    exact fun _ => nothing.around locked unlocked
  · intro t_start
    have locked : Neutral [⟨.lock .sNetLock, ()⟩, ⟨.time, t_start⟩] := by simp [Neutral, InBounds]
    refine Program.Ensures.bind (transfer_writes platform t_start
      (downloadCommand_ne platform serverIp user code)
      (downloadCommand_line_ne_nil platform serverIp user code)) fun trace _ bounded _ => ?_
    exact bounded.around locked unlocked

/-- The events of unbounded reads are in bounds when their sizes are. -/
theorem inBounds_unboundedWrite (sizes : List Nat) (rest : List (Event os)) :
    InBounds (sizes.map unboundedWrite ++ rest) ↔ (∀ size ∈ sizes, size ≤ size1K) ∧ InBounds rest := by
  rw [inBounds_append]
  refine and_congr_left fun _ => ?_
  induction sizes with
  | nil => exact iff_of_true inBounds_nil fun _ member => absurd member List.not_mem_nil
  | cons size sizes ih =>
    rw [List.map_cons, unboundedWrite, inBounds_cons_write, List.forall_mem_cons, ih]

/-- The unbounded reads are those of the records read. -/
theorem fileWrites_eq (platform : Platform) (file : File) :
    Nand.fileWrites platform (some file) =
      (Nand.recordsRead platform file).flatMap fun record =>
        Nand.writes platform file record.1 record.2 := by
  simp only [Nand.fileWrites, Nand.recordsRead]
  split
  · split
    · simp
    · simp
  · simp

/-- The bytes read over a header fit the buffer exactly when its length byte does. -/
theorem payload_le_iff (platform : Platform) (file : File) (offset length : Nat) :
    (Nand.payload platform file offset length).length ≤ size1K ↔
      Nand.LengthFits platform file offset length := by
  have small := ((Nand.header file offset length).headD 0).toNat_lt
  have limit : size1K = 1024 := rfl
  unfold Nand.payload Nand.LengthFits
  rw [fread_length, UInt8.lt_iff_toNat_lt, limit]
  change _ ↔ _ ∨ _ < 128 ∨ _
  cases signed : platform.charSigned with
  | false =>
    simp only [toSize_charValue signed, true_or, iff_true]
    omega
  | true =>
    simp only [Platform.toSize, Platform.charValue, signed, ↓reduceIte, toInt8_toInt,
      Bool.true_eq_false, false_or]
    rcases platform.wordBits_eq with width | width
    · rw [width]
      split <;> omega
    · rw [width]
      split <;> omega

/-- The identity records fit their buffer when the length bytes do. -/
theorem construct_writes (platform : Platform) :
    (RjcoreService.construct platform).Ensures fun trace _ =>
      InBounds trace ↔ Writer.construct.Fits platform trace := by
  refine construct_ensures.mono ?_
  rintro _ self ⟨opened, rfl, _⟩
  have closed : InBounds (if opened.isSome then [⟨.fclose, ()⟩] else []) := by
    split
    · simp [InBounds]
    · exact inBounds_nil
  rw [inBounds_cons_of_ne _ (by simp), inBounds_unboundedWrite, and_iff_left closed]
  cases opened with
  | none =>
    refine iff_of_true (fun _ member => absurd member List.not_mem_nil) fun file member => ?_
    simp [Nand.fileWrites] at member
  | some file =>
    have fits : Writer.construct.Fits platform (⟨.fopen infoPath (ascii "r+"), some file⟩ ::
        ((Nand.fileWrites platform (some file)).map unboundedWrite ++
          if (some file).isSome then [⟨.fclose, ()⟩] else [])) ↔
        ∀ record ∈ Nand.recordsRead platform file, Nand.Reached file record.1 record.2 →
          Nand.LengthFits platform file record.1 record.2 := by
      simp [Writer.Fits, unboundedWrite]
    rw [fits, fileWrites_eq]
    simp only [List.mem_flatMap, Nand.writes]
    constructor
    · intro bounds record member reached
      rw [← payload_le_iff]
      exact bounds _ ⟨record, member, by rw [if_pos reached]; exact List.mem_singleton.mpr rfl⟩
    · rintro lengths size ⟨record, member, inWrites⟩
      split at inWrites
      · rename_i reached
        rw [List.mem_singleton.mp inWrites, payload_le_iff]
        exact lengths record member reached
      · contradiction

/-- In every run of the routines all unbounded writes stay inside their buffers exactly when
what the system answers fits. -/
theorem writes_fit_iff (platform : Platform) (writer : Writer) :
    (writer.program platform).Ensures fun trace _ =>
      InBounds trace ↔ writer.Fits platform trace := by
  have dropped : ∀ {α : Type} {program : Program os α} {post : List (Event os) → Prop},
      (program.Ensures fun trace _ => post trace) →
        (do let _ ← program; pure ()).Ensures fun trace _ => post trace := by
    intro α program post holds
    refine Program.Ensures.bind holds fun trace _ kept => ?_
    change post (trace ++ [])
    rwa [List.append_nil]
  cases writer with
  | getCpuInfo => exact dropped (getCpuInfo_writes platform)
  | getSupportResolution =>
    exact dropped ((getSupportResolution_writes platform).mono fun _ _ bounds =>
      iff_of_true bounds trivial)
  | getOtaResult =>
    exact dropped (getOtaResult_writes.mono fun _ _ bounds => iff_of_true bounds trivial)
  | checkBandwidth_block serverIp user code =>
    exact dropped (checkBandwidth_writes platform serverIp user code)
  | construct => exact dropped (construct_writes platform)

/-- An identity file whose first length byte is negative as a signed `char`. -/
def negativeLength : File := ⟨128 :: List.replicate 1100 0, true⟩

/-- Everything that follows a negative length is read into the buffer. -/
theorem not_writes_fit :
    ¬∀ (platform : Platform) (writer : Writer),
      (writer.program platform).Ensures fun trace _ => InBounds trace := by
  intro bounds
  obtain ⟨rest, self, run⟩ : ∃ rest self, (RjcoreService.construct (.plain true)).Runs
      (⟨.fopen infoPath (ascii "r+"), some negativeLength⟩ :: rest) self :=
    @Program.exists_runs_ask os _ _ (.fopen infoPath (ascii "r+")) _ (some negativeLength)
  have inBounds := Program.ensures_iff.mp (bounds (.plain true) .construct) _ _
    (Program.runs_bind.mpr ⟨_, self, [], (List.append_nil _).symm, run, .done ()⟩)
  have fits := (Program.ensures_iff.mp (construct_writes (.plain true)) _ _ run).mp inBounds
  have length : negativeLength.content.length = 1101 := by
    rw [negativeLength, List.length_cons, List.length_replicate]
  have reached : Nand.Reached negativeLength 0 serialNumberLen := by
    refine ⟨rfl, ?_⟩
    rw [Nand.header, fread_length, length]
    decide
  rcases fits negativeLength List.mem_cons_self (0, serialNumberLen) List.mem_cons_self reached with
    unsigned | positive | short
  · exact absurd unsigned (show true ≠ false by decide)
  · change (128 : UInt8) < 128 at positive
    exact absurd positive (by decide)
  · rw [length] at short
    simp only [serialNumberLen, size1K] at short
    omega

end Rjcore
