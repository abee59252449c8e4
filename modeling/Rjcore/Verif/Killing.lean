import Rjcore.Service.Dispatch
import Rjcore.Text.Shell
import Rjcore.Text.Words

/-!
# Killing by name

`killByProcessName` splices what `pidof` printed into its command. The output is cut twice,
by the buffer that captures it and by the buffer of the command, so of a long output the
first 503 bytes are left. Where that cut falls inside an id, the command names the process
with the shortened id.
-/

namespace Rjcore

open Interaction CText RjcoreService

/-- Blanks and the newline end a word of a command line. -/
def endsWord (byte : UInt8) : Bool := Shell.isBlank byte || byte = newline

/-- The process ids in an output. -/
def ids (output : Bytes) : List Nat := (words endsWord output).map digitsValue

/-- What `pidof` prints: nothing, or ids separated by blanks and ended by a newline. -/
def PidText (output : Bytes) : Prop :=
  output = [] ∨ ∃ line, output = line ++ [newline] ∧ line ≠ [] ∧
    ∀ byte ∈ line, isDigit byte = true ∨ Shell.isBlank byte = true

/-- The arguments of a command behind its name and its option. -/
def arguments (line : Bytes) : List Bytes := (words endsWord line).drop 2

/-- Every argument of a command is a printed id, and where nothing was printed there is no
command. -/
def KillsReported (output : Bytes) (trace : List (Event os)) : Prop :=
  (∀ command status, ⟨.system command, status⟩ ∈ trace →
    ∀ argument ∈ arguments command.line, digitsValue argument ∈ ids output) ∧
  (output = [] → ∀ command status, ⟨.system command, status⟩ ∉ trace)

/-- Where `pidof` prints this output, only reported processes are killed. -/
def KillsOnlyReported (output : Bytes) : Prop :=
  ∀ platform processname, (killByProcessName platform processname).Ensures fun trace _ =>
    ∀ answer, ⟨.popen (pidofCommand platform processname), answer⟩ ∈ trace →
      answer.getD [] = output → KillsReported output trace

/-- What is left of a long output in the command that kills. -/
def passedLen : Nat := 503

/-- The output is cut inside an id, and what is left of the id is none that was printed. -/
def CutsForeign (output : Bytes) : Prop :=
  Cuts endsWord (output.take passedLen) (output.drop passedLen) ∧
    digitsValue (lastRun endsWord (output.take passedLen)) ∉ ids output

/-- The command that kills. -/
def killCommand (pids : Bytes) : Command := .printf size1KHalf "kill -9 %s" [.value pids]

variable {platform : Platform} {output : Bytes}

/-- Everything that `pidof` prints is ASCII text. -/
theorem PidText.isText (printed : PidText output) : ∀ byte ∈ output, byte ≠ nul ∧ byte < 128 := by
  have digit : ∀ byte, isDigit byte = true → byte ≠ nul ∧ byte < 128 := by
    intro byte inside
    simp only [isDigit, Bool.and_eq_true, decide_eq_true_eq] at inside
    refine ⟨?_, Nat.lt_of_le_of_lt inside.2 (by decide)⟩
    rintro rfl
    exact absurd inside.1 (by decide)
  have blank : ∀ byte, Shell.isBlank byte = true → byte ≠ nul ∧ byte < 128 := by
    intro byte space
    simp only [Shell.isBlank, Bool.or_eq_true, decide_eq_true_eq] at space
    rcases space with rfl | rfl <;> decide
  rcases printed with rfl | ⟨line, rfl, _, bytes⟩
  · exact fun byte member => absurd member List.not_mem_nil
  · intro byte member
    rcases List.mem_append.mp member with inside | last
    · exact (bytes byte inside).elim (digit byte) (blank byte)
    · rw [List.mem_singleton.mp last]
      decide

/-- The command line that kills holds the front of the ids. -/
theorem killCommand_line (pids : Bytes) :
    (killCommand pids).line = ascii "kill -9 " ++ pids.take passedLen := by
  have printed : (killCommand pids).printed = ascii "kill -9 " ++ pids := by
    change ascii "kill -9 " ++ (pids ++ ([] ++ [])) = _
    rw [List.append_nil, List.append_nil]
  have room : (killCommand pids).size - 1 = (ascii "kill -9 ").length + passedLen := rfl
  rw [Command.line, printed, snprintf, room]
  exact List.take_length_add_append passedLen

/-- The arguments of that command are the words of the ids. -/
theorem arguments_kill (pids : Bytes) :
    arguments (ascii "kill -9 " ++ pids) = words endsWord pids := by
  have name := @words_append_separator _ endsWord 32 rfl (ascii "kill") (ascii "-9 " ++ pids)
  have option := @words_append_separator _ endsWord 32 rfl (ascii "-9") pids
  change words endsWord (ascii "kill -9 " ++ pids) = [ascii "kill"] ++ _ at name
  change words endsWord (ascii "-9 " ++ pids) = [ascii "-9"] ++ _ at option
  rw [arguments, name, option]
  rfl

/-- What `getProcessId` reports for an answer of the shell. -/
def reportedIds (platform : Platform) (answer : Option Bytes) : String16 :=
  if report size1KHalf answer = [] then utf16 ""
  else platform.string16 (report size1KHalf answer)

/-- `getProcessId` reports what `pidof` printed, as far as it fits. -/
theorem getProcessId_ensures (processname : String16) :
    (getProcessId platform processname).Ensures fun trace pids => ∃ answer,
      trace = pipe (pidofCommand platform processname) answer ∧
        pids = reportedIds platform answer := by
  have named : (pidofCommand platform processname).line ≠ [] :=
    Command.printf_line_ne_nil rfl (by decide) (by decide)
  refine Program.Ensures.bind (executeCmd_report (by decide) named) fun trace res ran => ?_
  obtain ⟨_, answer, rfl, text⟩ := ran
  simp only [text]
  split
  · rename_i blank
    exact ⟨answer, List.append_nil _, (if_pos blank).symm⟩
  · rename_i some_text
    exact ⟨answer, List.append_nil _, (if_neg some_text).symm⟩

/-- `killByProcessName` looks up the ids, and runs one command if there are any. -/
theorem killByProcessName_ensures (processname : String16) :
    (killByProcessName platform processname).Ensures fun trace _ => ∃ answer rest,
      trace = pipe (pidofCommand platform processname) answer ++ rest ∧
        ((reportedIds platform answer = utf16 "" ∧ rest = []) ∨
          reportedIds platform answer ≠ utf16 "" ∧ ∃ saved status restored,
            rest = [⟨.signal .default, saved⟩,
              ⟨.system (killCommand (platform.string (reportedIds platform answer))), status⟩,
              ⟨.signal saved, restored⟩]) := by
  refine (getProcessId_ensures processname).bind fun trace pids reported => ?_
  obtain ⟨answer, rfl, rfl⟩ := reported
  by_cases none : reportedIds platform answer = utf16 ""
  · rw [if_pos none]
    exact ⟨answer, [], rfl, .inl ⟨none, rfl⟩⟩
  · rw [if_neg none]
    refine Program.Ensures.bind (mySystem_ensures
      (Command.printf_line_ne_nil rfl (by decide) (by decide))) fun rest ret ran => ?_
    obtain ⟨saved, status, restored, rfl, _⟩ := ran
    exact ⟨answer, _, rfl, .inr ⟨none, saved, status, restored, rfl⟩⟩

section Printed

variable (isText : ∀ byte ∈ output, byte ≠ nul ∧ byte < 128)

include isText

/-- The ids reported for an output are its front. -/
theorem reportedIds_eq {answer : Option Bytes} (same : answer.getD [] = output) :
    reportedIds platform answer = (output.take (size1KHalf - 1)).map UInt8.toUInt16 := by
  have text : report size1KHalf answer = output.take (size1KHalf - 1) := by
    cases answer with
    | none =>
      obtain rfl : [] = output := same
      rfl
    | some printed =>
      obtain rfl : printed = output := same
      exact capture_of_noNul le_rfl (by decide) fun member => (isText nul member).1 rfl
  have narrow : ∀ byte ∈ output.take (size1KHalf - 1), byte < 128 := fun byte member =>
    (isText byte (List.mem_of_mem_take member)).2
  rw [reportedIds, text, platform.string16_ascii _ narrow]
  split
  · rename_i blank
    rw [blank]
    rfl
  · rfl

/-- The front of the ids comes back from both conversions. -/
theorem string_reportedIds {answer : Option Bytes} (same : answer.getD [] = output) :
    platform.string (reportedIds platform answer) = output.take (size1KHalf - 1) := by
  rw [reportedIds_eq isText same, Platform.string, platform.string8_ascii, List.map_map]
  · have identity : UInt16.toUInt8 ∘ UInt8.toUInt16 = id :=
      funext fun byte => UInt8.toUInt8_toUInt16 byte
    rw [identity, List.map_id]
    exact cstr_of_noNul fun member => (isText nul (List.mem_of_mem_take member)).1 rfl
  · intro unit member
    obtain ⟨byte, inside, rfl⟩ := List.mem_map.mp member
    have small := (isText byte (List.mem_of_mem_take inside)).2
    rw [UInt16.lt_iff_toNat_lt]
    rw [UInt8.lt_iff_toNat_lt] at small
    simpa using small

/-- The arguments of the command for an output. -/
theorem arguments_passed {answer : Option Bytes} (same : answer.getD [] = output) :
    arguments (killCommand (platform.string (reportedIds platform answer))).line =
      words endsWord (output.take passedLen) := by
  rw [string_reportedIds isText same, killCommand_line, arguments_kill, List.take_take,
    show min passedLen (size1KHalf - 1) = passedLen from rfl]

/-- No ids are reported exactly when nothing was printed. -/
theorem reportedIds_eq_nil_iff {answer : Option Bytes} (same : answer.getD [] = output) :
    reportedIds platform answer = utf16 "" ↔ output = [] := by
  rw [reportedIds_eq isText same]
  change List.map _ _ = [] ↔ _
  rw [List.map_eq_nil_iff, List.take_eq_nil_iff, or_iff_right (by decide)]

/-- Only reported processes are killed exactly when every id left in the command was printed. -/
theorem killsOnlyReported_iff_passed :
    KillsOnlyReported output ↔
      ∀ argument ∈ words endsWord (output.take passedLen), digitsValue argument ∈ ids output := by
  constructor
  · intro reported
    by_cases nothing : output = []
    · rw [nothing]
      exact fun argument member => absurd member List.not_mem_nil
    · obtain ⟨rest, value, run⟩ : ∃ rest value,
          (killByProcessName (.plain false) []).Runs
            (⟨.popen (pidofCommand (.plain false) []), some output⟩ :: rest) value :=
        @Program.exists_runs_ask os _ _ (.popen (pidofCommand (.plain false) [])) _ _
      have kills := Program.ensures_iff.mp (reported (.plain false) []) _ _ run _
        List.mem_cons_self rfl
      obtain ⟨answer, later, whole, outcome⟩ :=
        Program.ensures_iff.mp (killByProcessName_ensures []) _ _ run
      have first : answer = some output := by
        cases answer <;> simp_all [pipe]
      subst first
      rw [reportedIds_eq_nil_iff isText rfl] at outcome
      obtain ⟨_, saved, status, restored, rfl⟩ := outcome.resolve_left fun none => nothing none.1
      rw [whole] at kills
      have arguments := kills.1 _ status (List.mem_append_right _ (List.mem_cons_of_mem _
        List.mem_cons_self))
      rwa [arguments_passed isText rfl] at arguments
  · intro passed platform processname
    refine (killByProcessName_ensures processname).mono fun trace _ ran other looked same => ?_
    obtain ⟨answer, rest, rfl, outcome⟩ := ran
    have quiet : ∀ command status, (⟨.system command, status⟩ : Event os) ∉
        pipe (pidofCommand platform processname) answer := by
      intro command status
      cases answer <;> simp [pipe]
    rcases outcome with ⟨none, rfl⟩ | ⟨some_ids, saved, status, restored, rfl⟩
    · rw [List.append_nil] at looked
      obtain ⟨_, rfl⟩ := popen_mem_pipe.mp looked
      rw [List.append_nil]
      exact ⟨fun command status member => absurd member (quiet command status),
        fun _ command status => quiet command status⟩
    · have first : other = answer := by
        rcases List.mem_append.mp looked with early | late
        · exact (popen_mem_pipe.mp early).2
        · simp at late
      subst first
      refine ⟨fun command ended member => ?_, fun nothing => ?_⟩
      · have own : command = killCommand (platform.string (reportedIds platform other)) := by
          rcases List.mem_append.mp member with early | late
          · exact absurd early (quiet command ended)
          · simp only [List.mem_cons, Event.mk.injEq, reduceCtorEq, false_and, or_false,
              List.not_mem_nil, Op.system.injEq, false_or] at late
            exact late.1
        rw [own, arguments_passed isText same]
        exact passed
      · exact absurd ((reportedIds_eq_nil_iff isText same).mpr nothing) some_ids

end Printed

/-- Only reported processes are killed if and only if the output is not cut inside an id so
that what is left of the id is none that was printed. -/
theorem killsOnlyReported_iff (printed : PidText output) :
    KillsOnlyReported output ↔ ¬CutsForeign output := by
  rw [killsOnlyReported_iff_passed printed.isText]
  constructor
  · rintro passed ⟨cut, foreign⟩
    exact foreign (passed _ (lastRun_mem cut.1))
  · intro whole argument member
    rcases mem_words_append (output.drop passedLen) member with inside | ⟨rfl, cut⟩
    · rw [List.take_append_drop] at inside
      exact List.mem_map_of_mem inside
    · by_contra foreign
      exact whole ⟨cut, foreign⟩

/-- Two ids are not cut. -/
theorem killsOnlyReported_two : PidText (ascii "12 34\n") ∧
    (KillsOnlyReported (ascii "12 34\n") ↔ ¬CutsForeign (ascii "12 34\n")) := by
  have printed : PidText (ascii "12 34\n") :=
    .inr ⟨ascii "12 34", rfl, by decide, List.forall_iff_forall_mem.mp (by decide)⟩
  exact ⟨printed, killsOnlyReported_iff printed⟩

/-- A hundred ids of four digits and one more. -/
def manyIds : Bytes := (List.replicate 100 (ascii "1234 ")).flatten ++ ascii "5678 "

/-- The last of many ids is cut to another one. -/
theorem not_killsOnlyReported : ¬∀ output, PidText output → KillsOnlyReported output := by
  intro reported
  have digits : ∀ byte ∈ manyIds, isDigit byte = true ∨ Shell.isBlank byte = true :=
    List.forall_iff_forall_mem.mp (by decide +kernel)
  have printed : PidText (manyIds ++ [newline]) :=
    .inr ⟨manyIds, rfl, by decide +kernel, digits⟩
  have passed := (killsOnlyReported_iff_passed printed.isText).mp (reported _ printed)
  have cut := passed (ascii "567") (by decide +kernel)
  exact absurd cut (by decide +kernel)

end Rjcore
