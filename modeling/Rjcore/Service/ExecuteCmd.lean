import Rjcore.Service.Os

/-!
# Running commands

`executeCmd` collects what a command prints in a buffer, line by line; `mySystem` runs a
command with the default disposition of `SIGCHLD`. The buffer `executeCmd` leaves holds
exactly the text that `capture` describes, which is shorter than the buffer and is the
front of the output as far as it fits when the output has no NUL.
-/

namespace Rjcore

open Interaction CText

/-- The loop of `executeCmd`: `pBuf` and `size` move over what each `fgets` stored. -/
def readLoop : (fuel : Nat) → (result : Bytes) → (pBuf size : Nat) → (stream : Bytes) → Bytes
  | 0, result, _, _, _ => result
  | fuel + 1, result, pBuf, size, stream =>
    match fgets size stream with
    | none => result
    | some (line, rest) =>
      let result := overwrite result pBuf (line ++ [nul])
      let len := (cstr (result.drop pBuf)).length
      if len = 0 then result else readLoop fuel result (pBuf + len) (size - len) rest

/-- `executeCmd(cmd, result, size)`: the buffer afterwards. Every turn of the loop but the
last consumes a byte of the output. -/
def executeCmd (cmd : Command) (result : Bytes) (size : Nat) : Program os Bytes :=
  if cmd.line = [] then pure result
  else do
    match ← perform (.popen cmd) with
    | none => pure result
    | some output => do
      perform .pclose
      pure (readLoop output.length result 0 size output)

/-- `RjcoreService::mySystem`. -/
def mySystem (cmd : Command) : Program os Int :=
  if cmd.line = [] then pure (-1)
  else do
    let old_handler ← perform (.signal .default)
    let ret ← perform (.system cmd)
    let _ ← perform (.signal old_handler)
    pure ret.value

/-- `Mutex::Autolock` around the rest of a function. -/
def withLock {α : Type} (mutex : Mutex) (body : Program os α) : Program os α := do
  perform (.lock mutex)
  let result ← body
  perform (.unlock mutex)
  pure result

/-! ## What is captured -/

/-- The text that the loop leaves from its position on. -/
def capture : (fuel size : Nat) → (stream : Bytes) → Bytes
  | 0, _, _ => []
  | fuel + 1, size, stream =>
    match fgets size stream with
    | none => []
    | some (line, rest) =>
      if cstr line = [] then [] else cstr line ++ capture fuel (size - (cstr line).length) rest

/-- The text `executeCmd` captures of an output in a fresh buffer. -/
def captured (size : Nat) (output : Bytes) : Bytes := capture output.length size output

/-- A stored line is read back up to its first NUL. -/
theorem cstr_drop_overwrite {buffer line : Bytes} {position : Nat}
    (inside : position ≤ buffer.length) :
    cstr ((overwrite buffer position (line ++ [nul])).drop position) = cstr line := by
  have front : (buffer.take position).length = position := List.length_take_of_le inside
  have dropped : (overwrite buffer position (line ++ [nul])).drop position =
      line ++ nul :: buffer.drop (position + (line ++ [nul]).length) := by
    unfold overwrite
    rw [List.append_assoc, List.drop_left' front, List.append_assoc]
    rfl
  rw [dropped]
  exact cstr_append_nul line _

/-- The loop writes inside the buffer and leaves the captured text, ended by a NUL. -/
theorem readLoop_spec {fuel size position : Nat} {buffer stream : Bytes}
    (inside : position + size ≤ buffer.length) (room : 0 < size)
    (ended : cstr (buffer.drop position) = []) :
    (readLoop fuel buffer position size stream).length = buffer.length ∧
      (readLoop fuel buffer position size stream).take position = buffer.take position ∧
      cstr ((readLoop fuel buffer position size stream).drop position) =
        capture fuel size stream := by
  induction fuel generalizing buffer position size stream with
  | zero => exact ⟨rfl, rfl, ended⟩
  | succ fuel ih =>
    cases read : fgets size stream with
    | none => simp only [readLoop, capture, read, ended, and_self]
    | some found =>
      obtain ⟨line, rest⟩ := found
      have short := (fgets_split read).2
      have stored : (overwrite buffer position (line ++ [nul])).length = buffer.length := by
        apply overwrite_length
        simp only [List.length_append, List.length_singleton]
        omega
      have kept : (overwrite buffer position (line ++ [nul])).take position =
          buffer.take position := take_overwrite (by omega)
      have text := @cstr_drop_overwrite buffer line position (by omega)
      simp only [readLoop, capture, read, text, List.length_eq_zero_iff]
      by_cases full : cstr line = []
      · simp only [full, ↓reduceIte]
        exact ⟨stored, kept, text.trans full⟩
      · simp only [full, ↓reduceIte]
        have some_read := List.length_pos_iff.mpr full
        have most := cstr_length_le line
        have onward : cstr ((overwrite buffer position (line ++ [nul])).drop
            (position + (cstr line).length)) = [] := by
          have stop := cstr_drop_length ((overwrite buffer position (line ++ [nul])).drop position)
          rwa [text, List.drop_drop] at stop
        obtain ⟨length, front, tail⟩ := @ih (size - (cstr line).length)
          (position + (cstr line).length) (overwrite buffer position (line ++ [nul])) rest
          (by rw [stored]; omega) (by omega) onward
        refine ⟨length.trans stored, ?_, ?_⟩
        · have before := congrArg (List.take position) front
          rw [List.take_take, List.take_take, Nat.min_eq_left (Nat.le_add_right ..)] at before
          exact before.trans kept
        · -- the line stands between the position and the rest of the text
          have line_kept := congrArg (List.drop position) front
          have line_text :=
            take_cstr_length ((overwrite buffer position (line ++ [nul])).drop position)
          have parts := List.take_append_drop (cstr line).length
            ((readLoop fuel (overwrite buffer position (line ++ [nul]))
              (position + (cstr line).length) (size - (cstr line).length) rest).drop position)
          rw [List.drop_take, List.drop_take, Nat.add_sub_cancel_left] at line_kept
          rw [text] at line_text
          rw [line_kept, line_text, List.drop_drop] at parts
          rw [← tail, ← parts, cstr_append_of_noNul (cstr_noNul line)]

/-- The captured text is shorter than the buffer. -/
theorem capture_length_lt (fuel : Nat) {size : Nat} (stream : Bytes) (room : 0 < size) :
    (capture fuel size stream).length < size := by
  induction fuel generalizing size stream with
  | zero => exact room
  | succ fuel ih =>
    cases read : fgets size stream with
    | none => simpa only [capture, read, List.length_nil] using room
    | some found =>
      obtain ⟨line, rest⟩ := found
      have short := (fgets_split read).2
      have most := cstr_length_le line
      simp only [capture, read]
      split
      · exact room
      · have later := @ih (size - (cstr line).length) rest (by omega)
        rw [List.length_append]
        omega

/-- Output without a NUL is captured as far as it fits. -/
theorem capture_of_noNul {fuel size : Nat} {stream : Bytes} (enough : stream.length ≤ fuel)
    (room : 0 < size) (clean : nul ∉ stream) : capture fuel size stream = stream.take (size - 1) := by
  induction fuel generalizing size stream with
  | zero =>
    rw [List.length_eq_zero_iff.mp (Nat.le_zero.mp enough), List.take_nil]
    rfl
  | succ fuel ih =>
    cases read : fgets size stream with
    | none =>
      have ended : stream = [] := by
        by_contra more
        simp [fgets, more] at read
      simp only [capture, read]
      rw [ended, List.take_nil]
    | some found =>
      obtain ⟨line, rest⟩ := found
      obtain ⟨whole, short⟩ := fgets_split read
      rw [whole, List.mem_append, not_or] at clean
      simp only [capture, read, cstr_of_noNul clean.1]
      split
      · rename_i full
        -- nothing was stored because only the NUL fits
        have tight : size - 1 = 0 := by
          by_contra more
          cases stream with
          | nil => simp [fgets] at read
          | cons byte stream =>
            obtain ⟨line, rest, stored⟩ := @fgets_cons size byte stream (by omega)
            simp [stored, full] at read
        rw [tight, List.take_zero]
      · rename_i some_read
        have consumed := List.length_pos_iff.mpr some_read
        rw [whole, List.length_append] at enough
        rw [@ih (size - line.length) rest (by omega) (by omega) clean.2, whole, List.take_append,
          List.take_of_length_le short]
        congr 2
        omega

/-- Nothing is captured exactly when there is no output or it starts with a NUL. -/
theorem captured_eq_nil_iff {size : Nat} (output : Bytes) (room : 1 < size) :
    captured size output = [] ↔ output.head?.getD nul = nul := by
  cases output with
  | nil => exact iff_of_true rfl rfl
  | cons byte output =>
    obtain ⟨line, rest, stored⟩ := @fgets_cons size byte output room
    simp only [captured, List.length_cons, capture, stored, cstr_eq_nil_iff]
    by_cases stop : byte = nul
    · simp [stop]
    · simp [stop, cstr_eq_nil_iff]

/-- The text a fresh buffer holds for an answer to `popen`. -/
def report (size : Nat) (answer : Option Bytes) : Bytes := (answer.map (captured size)).getD []

/-- Text that fits is reported whole. -/
theorem report_text {size : Nat} {text : Bytes} (clean : nul ∉ text) (fits : text.length < size) :
    report size (some text) = text :=
  (capture_of_noNul le_rfl (by omega) clean).trans (List.take_of_length_le (by omega))

/-- The events of a command that is run for its output. -/
def pipe (cmd : Command) (answer : Option Bytes) : List (Event os) :=
  ⟨.popen cmd, answer⟩ :: if answer.isSome then [⟨.pclose, ()⟩] else []

/-- The one command of these events. -/
theorem popen_mem_pipe {cmd other : Command} {answer answer' : Option Bytes} :
    (⟨.popen other, answer'⟩ : Event os) ∈ pipe cmd answer ↔ other = cmd ∧ answer' = answer := by
  cases answer <;> simp [pipe]

/-- The loop on a fresh buffer. -/
theorem readLoop_fresh {size : Nat} (room : 0 < size) (output : Bytes) :
    (readLoop output.length (zeros size) 0 size output).length = size ∧
      cstr (readLoop output.length (zeros size) 0 size output) = captured size output := by
  have length : (zeros size).length = size := List.length_replicate
  obtain ⟨same, _, text⟩ := @readLoop_spec output.length size 0 (zeros size) output
    (by rw [length]; omega) room (cstr_zeros size)
  exact ⟨same.trans length, text⟩

/-- What `executeCmd` does with a fresh buffer: the command is started, and the text it
printed is captured; without a command or a process the buffer stays empty. -/
theorem executeCmd_ensures (cmd : Command) {size : Nat} (room : 0 < size) :
    (executeCmd cmd (zeros size) size).Ensures fun trace buffer =>
      buffer.length = size ∧
        (trace = [] ∧ cmd.line = [] ∧ cstr buffer = [] ∨
          trace = [⟨.popen cmd, none⟩] ∧ cmd.line ≠ [] ∧ cstr buffer = [] ∨
          ∃ output, trace = [⟨.popen cmd, some output⟩, ⟨.pclose, ()⟩] ∧ cmd.line ≠ [] ∧
            cstr buffer = captured size output) := by
  unfold executeCmd
  split
  · rename_i blank
    exact ⟨List.length_replicate, .inl ⟨rfl, blank, cstr_zeros size⟩⟩
  · rename_i command
    intro answer
    cases answer with
    | none => exact ⟨List.length_replicate, .inr (.inl ⟨rfl, command, cstr_zeros size⟩)⟩
    | some output =>
      intro _
      obtain ⟨length, text⟩ := readLoop_fresh room output
      exact ⟨length, .inr (.inr ⟨output, rfl, command, text⟩)⟩

/-- A command line that is not empty is always started, and its output reported. -/
theorem executeCmd_report {cmd : Command} {size : Nat} (room : 0 < size) (command : cmd.line ≠ []) :
    (executeCmd cmd (zeros size) size).Ensures fun trace buffer =>
      buffer.length = size ∧ ∃ answer, trace = pipe cmd answer ∧ cstr buffer = report size answer := by
  refine (executeCmd_ensures cmd room).mono fun trace buffer outcome => ⟨outcome.1, ?_⟩
  rcases outcome.2 with ⟨_, blank, _⟩ | ⟨rfl, _, text⟩ | ⟨output, rfl, _, text⟩
  · exact absurd blank command
  · exact ⟨none, rfl, text⟩
  · exact ⟨some output, rfl, text⟩

/-- A command line that is not empty may be answered in every way. -/
theorem executeCmd_runs {cmd : Command} {size : Nat} (room : 0 < size) (command : cmd.line ≠ [])
    (answer : Option Bytes) : ∃ buffer, cstr buffer = report size answer ∧
      (executeCmd cmd (zeros size) size).Runs (pipe cmd answer) buffer := by
  rw [executeCmd, if_neg command]
  cases answer with
  | none => exact ⟨_, cstr_zeros size, @Program.Runs.ask os _ (.popen cmd) _ _ _ none (.done _)⟩
  | some output =>
    refine ⟨_, (readLoop_fresh room output).2,
      @Program.Runs.ask os _ (.popen cmd) _ _ _ (some output) ?_⟩
    exact @Program.Runs.ask os _ .pclose _ _ _ () (.done _)

/-- A command line that is not empty is run between two exchanges of the disposition. -/
theorem mySystem_ensures {cmd : Command} (command : cmd.line ≠ []) :
    (mySystem cmd).Ensures fun trace ret => ∃ saved status restored,
      trace = [⟨.signal .default, saved⟩, ⟨.system cmd, status⟩, ⟨.signal saved, restored⟩] ∧
        ret = status.value := by
  rw [mySystem, if_neg command]
  exact fun saved status restored => ⟨saved, status, restored, rfl, rfl⟩

end Rjcore
