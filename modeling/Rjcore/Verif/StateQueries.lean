import Rjcore.Service.Dispatch

/-!
# Queries of a state

`getPowerState` and `getLedStatus` take the first byte of what a command prints for a digit
and refuse only what lies below `'0'`. Every byte above the last digit comes out as a state
that does not exist, unless plain `char` is signed and the byte negative.
-/

namespace Rjcore

open Interaction CText RjcoreService

/-- A query of a state. -/
inductive StateQuery
  | power
  | led (color : Int32)

namespace StateQuery

/-- The method. -/
def run (platform : Platform) (self : RjcoreService) : StateQuery → Program os Int32
  | .power => self.getPowerState platform
  | .led color => self.getLedStatus platform color

/-- The number of states: enabled and disabled, or green, red and blue. -/
def count : StateQuery → Nat
  | .power => 2
  | .led _ => 3

/-- The state a byte is the digit of, or -1. -/
def meant (query : StateQuery) (byte : UInt8) : Int32 :=
  if 48 ≤ byte.toNat ∧ byte.toNat < 48 + query.count then Int32.ofNat (byte.toNat - 48) else -1

/-- What is returned where the command is not run: an unsupported product has no power state
other than 0. -/
def Unsupported (self : RjcoreService) : StateQuery → Int32 → Prop
  | .power, state => withoutPowerControl self.mProductType = true ∧ state = 0
  | .led _, state => state = -1

end StateQuery

/-- The first byte of an output, NUL where there is none. -/
def firstByte (answer : Option Bytes) : UInt8 := (answer.getD []).headD nul

/-- The state returned is the one whose digit was printed first, or -1; without an output it is
the one of an unsupported product. -/
structure StateOrError (service : RjcoreService) (query : StateQuery) (trace : List (Event os))
    (state : Int32) : Prop where
  /-- What the output means is returned. -/
  printed : ∀ command answer, ⟨.popen command, answer⟩ ∈ trace →
    state = query.meant (firstByte answer)
  /-- Without an output the product is not supported. -/
  silent : (∀ command answer, ⟨.popen command, answer⟩ ∉ trace) → query.Unsupported service state
  /-- Nothing else is returned. -/
  known : state = -1 ∨ ∃ value < query.count, state = Int32.ofNat value

/-- No output begins with a byte above the last digit. -/
def BelowLast (platform : Platform) (query : StateQuery) (trace : List (Event os)) : Prop :=
  ∀ command answer, ⟨.popen command, answer⟩ ∈ trace →
    platform.charValue (firstByte answer) < 48 + query.count

variable {platform : Platform} {self : RjcoreService} {query : StateQuery}

/-- The first byte of a buffer is that of the string it holds. -/
theorem headD_cstr (buffer : Bytes) : (cstr buffer).headD nul = buffer.headD nul := by
  cases buffer with
  | nil => rfl
  | cons byte rest =>
    by_cases zero : byte = nul
    · simp [cstr, zero]
    · simp [cstr, zero]

/-- The first byte of what is captured is that of the output. -/
theorem headD_captured {size : Nat} (output : Bytes) (room : 1 < size) :
    (captured size output).headD nul = output.headD nul := by
  cases output with
  | nil => rfl
  | cons byte output =>
    obtain ⟨line, rest, stored⟩ := @fgets_cons size byte output room
    have first := headD_cstr (byte :: line)
    simp only [captured, List.length_cons, capture, stored]
    split
    · rename_i stop
      rwa [stop] at first
    · rename_i go
      obtain ⟨head, tail, line⟩ := List.exists_cons_of_ne_nil go
      rw [line] at first ⊢
      exact first

/-- The first byte in the buffer is that of the answer. -/
theorem headD_report {size : Nat} {buffer : Bytes} {answer : Option Bytes} (room : 1 < size)
    (text : cstr buffer = report size answer) : buffer.headD 0 = firstByte answer := by
  refine (headD_cstr buffer).symm.trans ?_
  rw [text]
  cases answer with
  | none => rfl
  | some output => exact headD_captured output room

/-- The states are numbers that differ from -1. -/
theorem StateQuery.known_meant (query : StateQuery) (byte : UInt8) :
    query.meant byte = -1 ∨ ∃ value < query.count, query.meant byte = Int32.ofNat value := by
  unfold meant
  split
  · exact .inr ⟨byte.toNat - 48, by omega, rfl⟩
  · exact .inl rfl

/-- A digit is read as it is meant exactly when the byte is not above the last one. -/
theorem digitState_eq_meant_iff {buffer : Bytes} {byte : UInt8} (first : buffer.headD 0 = byte) :
    digitState platform buffer = query.meant byte ↔
      platform.charValue byte < 48 + query.count := by
  have few : query.count ≤ 3 := by
    cases query with
    | power => decide
    | led color => exact le_rfl
  have small := byte.toNat_lt
  have value := platform.charValue_eq byte
  simp only [digitState, first, StateQuery.meant]
  split at value
  · -- a negative byte is no digit
    rw [value, if_pos (by omega), if_neg (by omega)]
    exact iff_of_true rfl (by omega)
  · rw [value]
    by_cases low : byte.toNat < 48
    · rw [if_pos (by omega), if_neg (by omega)]
      exact iff_of_true rfl (by omega)
    · rw [if_neg (by omega)]
      have number : Int32.ofInt (byte.toNat - 48) = Int32.ofNat (byte.toNat - 48) := by
        have cast : (byte.toNat : Int) - 48 = ((byte.toNat - 48 : Nat) : Int) := by omega
        rw [cast]
        rfl
      rw [number]
      split
      · exact iff_of_true rfl (by omega)
      · refine iff_of_false (fun same => ?_) (by omega)
        have wide := congrArg Int32.toInt same
        rw [Int32.toInt_ofNat_of_lt (by omega)] at wide
        change _ = (-1 : Int) at wide
        omega

/-- A query that runs its command reads the first byte of the output. -/
theorem query_ensures {command : Command} {size : Nat} (room : 1 < size)
    (named : command.line ≠ []) :
    (do let res ← executeCmd command (zeros size) size; pure (digitState platform res)).Ensures
      fun trace state => StateOrError self query trace state ↔ BelowLast platform query trace := by
  refine Program.Ensures.bind (executeCmd_report (by omega) named) fun trace buffer ran => ?_
  obtain ⟨_, answer, rfl, text⟩ := ran
  have reading := @digitState_eq_meant_iff platform query _ _ (headD_report room text)
  have only : ∀ (other : Command) (answer' : Option Bytes),
      (⟨.popen other, answer'⟩ : Event os) ∈ pipe command answer ++ [] ↔
        other = command ∧ answer' = answer := by
    intro other answer'
    rw [List.append_nil]
    exact popen_mem_pipe
  constructor
  · intro right other answer' member
    obtain ⟨rfl, rfl⟩ := (only other answer').mp member
    exact reading.mp (right.printed _ _ member)
  · intro below
    have state := reading.mpr (below command answer ((only _ _).mpr ⟨rfl, rfl⟩))
    refine ⟨fun other answer' member => ?_, fun silent => ?_, ?_⟩
    · obtain ⟨rfl, rfl⟩ := (only other answer').mp member
      exact state
    · exact absurd ((only command answer).mpr ⟨rfl, rfl⟩) (silent command answer)
    · rw [state]
      exact query.known_meant _

/-- A query that runs no command returns what is returned for an unsupported product. -/
theorem StateOrError.of_unsupported {state : Int32} (refused : query.Unsupported self state)
    (known : state = -1 ∨ ∃ value < query.count, state = Int32.ofNat value) :
    StateOrError self query [] state :=
  ⟨fun _ _ member => absurd member List.not_mem_nil, fun _ => refused, known⟩

/-- In every run a query returns a state or an error exactly when no output begins with a byte
above the last digit. -/
theorem statesOrError_iff (platform : Platform) (self : RjcoreService) (query : StateQuery) :
    (query.run platform self).Ensures fun trace state =>
      StateOrError self query trace state ↔ BelowLast platform query trace := by
  have quiet : BelowLast platform query [] := fun _ _ member => absurd member List.not_mem_nil
  cases query with
  | power =>
    change (getPowerState platform self).Ensures _
    unfold getPowerState
    split
    · rename_i unsupported
      exact iff_of_true (.of_unsupported ⟨unsupported, rfl⟩ (.inr ⟨0, by decide, rfl⟩)) quiet
    · exact query_ensures (by decide) (Command.line_ne_nil rfl (by decide))
  | led color =>
    have refused : StateOrError self (.led color) [] (-1) := .of_unsupported rfl (.inl rfl)
    change (getLedStatus platform self color).Ensures _
    unfold getLedStatus
    split
    · exact iff_of_true refused quiet
    split
    · exact iff_of_true refused quiet
    · exact query_ensures (by decide) (Command.printf_line_ne_nil rfl (by decide) (by decide))

/-- The first letter of a message is returned as a state. -/
theorem not_statesOrError : ¬∀ (platform : Platform) (self : RjcoreService) (query : StateQuery),
    (query.run platform self).Ensures (StateOrError self query) := by
  intro states
  let self : RjcoreService := ⟨true, utf16 "", utf16 "Rain200", utf16 "", utf16 ""⟩
  have run := states (.plain false) self .power (some (ascii "Error")) ()
  have meant := run.printed _ _ List.mem_cons_self
  exact absurd meant (by decide)

end Rjcore
