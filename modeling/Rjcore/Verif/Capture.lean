import Mathlib.Logic.Relation
import Rjcore.Service.ExecuteCmd

/-!
# The loop of `executeCmd`

The loop as a relation on its variables, for every `fgets` that keeps to its description:
where room for the NUL alone is left, it may store the NUL or return nothing. From a fresh
buffer the loop stays inside the buffer, ends, and leaves the front of the output.
-/

namespace Rjcore

open Interaction CText

/-- The variables of the loop, `pBuf` as an offset into the buffer. -/
structure Reading where
  result : Bytes
  pBuf : Nat
  size : Nat
  stream : Bytes

/-- What `fgets` may store and leave of the stream. -/
inductive MayRead (size : Nat) (stream : Bytes) : Option (Bytes × Bytes) → Prop
  | usual : MayRead size stream (fgets size stream)
  /-- Room for the NUL alone: nothing is stored. -/
  | nothing (tight : size = 1) : MayRead size stream none
  /-- Room for the NUL alone: the NUL is stored. -/
  | nulAlone (tight : size = 1) : MayRead size stream (some ([], stream))

namespace Reading

/-- The loop with a fresh buffer. -/
def start (size : Nat) (output : Bytes) : Reading := ⟨zeros size, 0, size, output⟩

/-- The buffer after `fgets` stored a line. -/
def stored (reading : Reading) (line : Bytes) : Bytes :=
  overwrite reading.result reading.pBuf (line ++ [nul])

/-- `strlen(pBuf)` after `fgets` stored a line. -/
def strlen (reading : Reading) (line : Bytes) : Nat :=
  (cstr ((reading.stored line).drop reading.pBuf)).length

/-- A turn of the loop that goes on. -/
inductive Turn : Reading → Reading → Prop
  | go {reading : Reading} {line rest : Bytes}
      (read : MayRead reading.size reading.stream (some (line, rest)))
      (more : reading.strlen line ≠ 0) :
      Turn reading ⟨reading.stored line, reading.pBuf + reading.strlen line,
        reading.size - reading.strlen line, rest⟩

/-- The end of the loop, with the buffer it leaves. -/
inductive Ends : Reading → Bytes → Prop
  | exhausted {reading : Reading} (read : MayRead reading.size reading.stream none) :
      Ends reading reading.result
  | full {reading : Reading} {line rest : Bytes}
      (read : MayRead reading.size reading.stream (some (line, rest)))
      (none : reading.strlen line = 0) : Ends reading (reading.stored line)

/-- The readings the loop passes through. -/
abbrev Reached (size : Nat) (output : Bytes) : Reading → Prop :=
  Relation.ReflTransGen Turn (start size output)

/-- What every turn preserves, for a buffer of some size and some output. -/
structure Sound (size : Nat) (output : Bytes) (reading : Reading) : Prop where
  /-- The buffer keeps its size. -/
  length : reading.result.length = size
  /-- The pointer and the size move together. -/
  position : reading.pBuf + reading.size = size
  /-- There is room for a NUL. -/
  room : 1 ≤ reading.size
  /-- The string in the buffer ends at the pointer. -/
  ended : cstr (reading.result.drop reading.pBuf) = []
  /-- Without a NUL in the output, what was read is what stands before the pointer. -/
  front : nul ∉ output → reading.result.take reading.pBuf = output.take reading.pBuf
  /-- What was not read is what follows. -/
  rest : nul ∉ output → reading.pBuf ≤ output.length ∧ reading.stream = output.drop reading.pBuf

/-- A line that is read is the front of the stream and leaves room for the NUL. -/
theorem mayRead_split {size : Nat} {stream line rest : Bytes}
    (read : MayRead size stream (some (line, rest))) (room : 1 ≤ size) :
    stream = line ++ rest ∧ line.length + 1 ≤ size := by
  generalize found : some (line, rest) = answer at read
  cases read with
  | usual =>
    obtain ⟨whole, short⟩ := fgets_split found.symm
    exact ⟨whole, by omega⟩
  | nothing tight => contradiction
  | nulAlone tight =>
    simp only [Option.some.injEq, Prod.mk.injEq] at found
    obtain ⟨rfl, rfl⟩ := found
    exact ⟨rfl, room⟩

/-- Where nothing is read, the stream is at its end or only the NUL fits. -/
theorem mayRead_none {size : Nat} {stream : Bytes} (read : MayRead size stream none) :
    stream = [] ∨ size = 1 := by
  generalize found : none = answer at read
  cases read with
  | usual =>
    by_cases ended : stream = []
    · exact .inl ended
    · simp [fgets, ended] at found
  | nothing tight => exact .inr tight
  | nulAlone tight => contradiction

/-- Where an empty line is read, only the NUL fits. -/
theorem mayRead_nil {size : Nat} {stream rest : Bytes}
    (read : MayRead size stream (some ([], rest))) (room : 1 ≤ size) : size = 1 := by
  generalize found : some ([], rest) = answer at read
  cases read with
  | usual =>
    by_contra more
    cases stream with
    | nil => simp [fgets] at found
    | cons byte stream =>
      obtain ⟨line, rest, stored⟩ := @fgets_cons size byte stream (by omega)
      simp [stored] at found
  | nothing tight => contradiction
  | nulAlone tight => exact tight

namespace Sound

variable {size : Nat} {output : Bytes} {reading : Reading}

/-- The loop begins with a fresh buffer. -/
theorem start (room : 0 < size) : Sound size output (Reading.start size output) where
  length := List.length_replicate
  position := Nat.zero_add size
  room := room
  ended := cstr_zeros size
  front _ := rfl
  rest _ := ⟨Nat.zero_le _, rfl⟩

/-- A line is stored inside the buffer. -/
theorem inside (sound : Sound size output reading) {line rest : Bytes}
    (read : MayRead reading.size reading.stream (some (line, rest))) :
    reading.pBuf + (line ++ [nul]).length ≤ size := by
  have short := (mayRead_split read sound.room).2
  have position := sound.position
  rw [List.length_append, List.length_singleton]
  omega

/-- The string found after a store is the front of the line. -/
theorem strlen_eq (sound : Sound size output reading) (line : Bytes) :
    reading.strlen line = (cstr line).length := by
  have position := sound.position
  have length := sound.length
  rw [strlen, stored, cstr_drop_overwrite (by omega)]

/-- Of output without a NUL, a line is what follows the pointer. -/
theorem line_clean (sound : Sound size output reading) {line rest : Bytes}
    (read : MayRead reading.size reading.stream (some (line, rest))) (clean : nul ∉ output) :
    cstr line = line ∧ reading.pBuf ≤ output.length ∧ output.drop reading.pBuf = line ++ rest := by
  obtain ⟨reached, unread⟩ := sound.rest clean
  have follows : output.drop reading.pBuf = line ++ rest := by
    rw [← unread, (mayRead_split read sound.room).1]
  have line_noNul : nul ∉ line := by
    intro member
    have later : nul ∈ output.drop reading.pBuf := by
      rw [follows]
      exact List.mem_append_left rest member
    exact clean (List.mem_of_mem_drop later)
  exact ⟨cstr_of_noNul line_noNul, reached, follows⟩

/-- Every turn preserves it. -/
theorem turn (sound : Sound size output reading) {next : Reading} (turn : Turn reading next) :
    Sound size output next := by
  cases turn with
  | @go line rest read more =>
    have inside := sound.inside read
    have length := sound.length
    have position := sound.position
    have most := cstr_length_le line
    rw [List.length_append, List.length_singleton] at inside
    have strlen := sound.strlen_eq line
    have kept : (reading.stored line).length = reading.result.length := by
      apply overwrite_length
      rw [List.length_append, List.length_singleton]
      omega
    refine ⟨kept.trans length, ?_, ?_, ?_, fun clean => ?_, fun clean => ?_⟩
    · change reading.pBuf + reading.strlen line + (reading.size - reading.strlen line) = size
      omega
    · change 1 ≤ reading.size - reading.strlen line
      omega
    · have stop := cstr_drop_length ((reading.stored line).drop reading.pBuf)
      rwa [List.drop_drop] at stop
    · obtain ⟨same, reached, follows⟩ := sound.line_clean read clean
      have before : (reading.result.take reading.pBuf).length = reading.pBuf :=
        List.length_take_of_le (by omega)
      have placed : (reading.stored line).take (reading.pBuf + line.length) =
          reading.result.take reading.pBuf ++ line := by
        have taken := @List.take_length_add_append _ (reading.result.take reading.pBuf)
          (line ++ ([nul] ++ reading.result.drop (reading.pBuf + (line ++ [nul]).length)))
          line.length
        rw [before, List.take_left] at taken
        rw [stored, overwrite, List.append_assoc, List.append_assoc, taken]
      change (reading.stored line).take (reading.pBuf + reading.strlen line) =
        output.take (reading.pBuf + reading.strlen line)
      rw [strlen, same, placed, sound.front clean, List.take_add, follows, List.take_left]
    · obtain ⟨same, reached, follows⟩ := sound.line_clean read clean
      have lengths := congrArg List.length follows
      rw [List.length_drop, List.length_append] at lengths
      change reading.pBuf + reading.strlen line ≤ output.length ∧
        rest = output.drop (reading.pBuf + reading.strlen line)
      rw [strlen, same, ← List.drop_drop, follows, List.drop_left]
      exact ⟨by omega, rfl⟩

/-- It holds of every reading the loop passes through. -/
theorem reached (room : 0 < size) (reached : Reached size output reading) :
    Sound size output reading := by
  induction reached with
  | refl => exact Sound.start room
  | tail _ last ih => exact ih.turn last

/-- The string in the buffer is the front of an output without a NUL. -/
theorem text (sound : Sound size output reading) (clean : nul ∉ output) :
    cstr reading.result = output.take reading.pBuf := by
  have front_noNul : nul ∉ reading.result.take reading.pBuf := by
    rw [sound.front clean]
    exact fun member => clean (List.mem_of_mem_take member)
  have whole := cstr_append_of_noNul front_noNul (reading.result.drop reading.pBuf)
  rw [List.take_append_drop, sound.ended, List.append_nil] at whole
  rw [whole, sound.front clean]

/-- Where the loop ends, the string in the buffer is the front of the output. -/
theorem ends (sound : Sound size output reading) {buffer : Bytes} (ends : Ends reading buffer) :
    buffer.length = size ∧
      (nul ∉ output → cstr buffer = output.take (min output.length (size - 1))) := by
  have position := sound.position
  have room := sound.room
  have length := sound.length
  cases ends with
  | exhausted read =>
    refine ⟨length, fun clean => ?_⟩
    rw [sound.text clean]
    obtain ⟨reached, unread⟩ := sound.rest clean
    rcases mayRead_none read with ended | tight
    · have behind : output.length ≤ reading.pBuf := by
        rw [unread] at ended
        exact List.drop_eq_nil_iff.mp ended
      have all : reading.pBuf = min output.length (size - 1) := by omega
      rw [all]
    · have all : reading.pBuf = min output.length (size - 1) := by omega
      rw [all]
  | @full line rest read none =>
    have inside := sound.inside read
    have stored : (reading.stored line).length = size := by
      have kept : (reading.stored line).length = reading.result.length :=
        overwrite_length (by omega)
      exact kept.trans length
    refine ⟨stored, fun clean => ?_⟩
    obtain ⟨same, reached, follows⟩ := sound.line_clean read clean
    -- no NUL was printed, so nothing was stored and only the NUL fits
    have empty : line = [] := by
      rw [sound.strlen_eq, List.length_eq_zero_iff, same] at none
      exact none
    subst empty
    have tight := mayRead_nil read room
    have all : reading.pBuf = min output.length (size - 1) := by omega
    have before : (reading.stored []).take reading.pBuf = output.take reading.pBuf := by
      rw [← sound.front clean]
      apply take_overwrite
      omega
    have front_noNul : nul ∉ (reading.stored []).take reading.pBuf := by
      rw [before]
      exact fun member => clean (List.mem_of_mem_take member)
    have whole := cstr_append_of_noNul front_noNul ((reading.stored []).drop reading.pBuf)
    have after : cstr ((reading.stored []).drop reading.pBuf) = [] := by
      apply List.eq_nil_of_length_eq_zero
      exact none
    rw [List.take_append_drop, after, List.append_nil, before, all] at whole
    exact whole

end Sound

end Reading

end Rjcore
