import Rjcore.Service.Dispatch
import Rjcore.Text.Words

/-!
# The update flag

`getOtaResult` reads a key of a file of lines through `grep`, which hands over every line that
contains the name of the key. The key is looked for in front of the first of these lines only,
and a line without a value lets the next one supply it. The answer is right exactly where the
other lines do not disturb it.
-/

namespace Rjcore

open Interaction CText RjcoreService

/-- A text file, line by line. -/
structure TextFile where
  /-- Its lines. -/
  lines : List Bytes
  /-- A line is text and ends at the newline. -/
  isText : ∀ line ∈ lines, nul ∉ line ∧ newline ∉ line

/-- The lines that contain a word. -/
def TextFile.grep (file : TextFile) (word : Bytes) : List Bytes :=
  file.lines.filter fun line => strstr line word

/-- Lines as they are printed. -/
def printLines (lines : List Bytes) : Bytes := lines.flatMap fun line => line ++ [newline]

/-- The name of the key. -/
def updateFlag : Bytes := ascii "updateFlag"

/-- What stands in front of the value. -/
def flagPrefix : Bytes := ascii "updateFlag="

/-- The value of success. -/
def updateSuccess : Bytes := ascii "UPDATE_SUCCESS"

/-- A line of the key. -/
def isFlagLine (line : Bytes) : Bool := decide (flagPrefix <+: line)

/-- What stands behind the prefix of a line. -/
def behindPrefix (line : Bytes) : Bytes := line.drop flagPrefix.length

/-- The value of the key: the first word behind the prefix, on the first line of the key. -/
def TextFile.flag (file : TextFile) : Option Bytes :=
  (file.lines.find? isFlagLine).map fun line => firstWord isSpace (behindPrefix line)

/-- The lines that name the key fit the buffer. -/
def TextFile.FlagFits (file : TextFile) : Prop :=
  (printLines (file.grep updateFlag)).length ≤ 1023

instance (file : TextFile) : Decidable file.FlagFits := Nat.decLe _ _

/-- The lines that name the key do not disturb the answer: where the first of them is no line of
the key, the key does not say success further down; where it is one without a value, the next
of them does not begin with the word of success. -/
def FlagUndisturbed (file : TextFile) : Prop :=
  match file.grep updateFlag with
  | [] => True
  | line :: others =>
    if isFlagLine line then words isSpace (behindPrefix line) = [] →
      ∀ next ∈ others.head?, firstWord isSpace next ≠ updateSuccess
    else file.flag ≠ some updateSuccess

/-- The command of `getOtaResult`. -/
def otaCommand : Command :=
  .literal "cat /sdcard/com.ruijie.rccstu/config.ini | grep updateFlag"

variable {file : TextFile}

/-- A line of the key names it. -/
theorem strstr_of_isFlagLine {line : Bytes} (key : isFlagLine line = true) :
    strstr line updateFlag = true := by
  have front : flagPrefix <+: line := of_decide_eq_true key
  have name : updateFlag <+: flagPrefix := ⟨ascii "=", by decide⟩
  exact decide_eq_true (name.trans front).isInfix

/-- The first line of the key is found among those that name it. -/
theorem TextFile.find_grep (file : TextFile) :
    (file.grep updateFlag).find? isFlagLine = file.lines.find? isFlagLine := by
  rw [TextFile.grep, List.find?_filter]
  congr 1
  funext line
  cases key : isFlagLine line with
  | true => simp [strstr_of_isFlagLine key]
  | false => simp

/-- What `grep` prints is text. -/
theorem TextFile.clean_grep (file : TextFile) (word : Bytes) : nul ∉ printLines (file.grep word) := by
  intro member
  obtain ⟨line, listed, inside⟩ := List.mem_flatMap.mp member
  rcases List.mem_append.mp inside with early | last
  · exact (file.isText line (List.mem_of_mem_filter listed)).1 early
  · exact absurd (List.mem_singleton.mp last) (by decide)

/-- The answer to a text: the prefix in front, and the word of success first behind it. -/
def saysSuccess (text : Bytes) : Prop :=
  flagPrefix <+: text ∧ firstWord isSpace (behindPrefix text) = updateSuccess

/-- The comparison includes the NUL. -/
theorem strncmpEq_success (word : Bytes) :
    strncmpEq 15 word updateSuccess = true ↔ word = updateSuccess := by
  have length : updateSuccess.length = 14 := by decide
  rw [strncmpEq, decide_eq_true_eq, List.take_of_length_le (length.trans_le (by decide))]
  constructor
  · intro same
    have front := congrArg List.length same
    rw [List.length_take, length] at front
    rwa [List.take_of_length_le (by omega)] at same
  · rintro rfl
    exact List.take_of_length_le (length.trans_le (by decide))

/-- The scanned word is the one behind the prefix. -/
theorem scanned_eq_success_iff (text : Bytes) :
    strncmpEq 15 ((sscanfWord flagPrefix text).getD []) updateSuccess = true ↔ saysSuccess text := by
  have some_success : [] ≠ updateSuccess := by decide
  simp only [strncmpEq_success, sscanfWord, takeWhile_dropWhile_eq_firstWord, saysSuccess]
  by_cases front : flagPrefix <+: text
  · rw [if_pos front, and_iff_right front, behindPrefix]
    split
    · rename_i blank
      rw [blank]
      exact iff_of_false some_success some_success
    · exact Iff.rfl
  · rw [if_neg front]
    exact iff_of_false some_success fun success => front success.1

/-- `getOtaResult` asks whether the lines of the key's name say success. -/
theorem getOtaResult_ensures : getOtaResult.Ensures fun trace result => ∀ file : TextFile,
    file.FlagFits → ⟨.popen otaCommand, some (printLines (file.grep updateFlag))⟩ ∈ trace →
      (result = true ↔ saysSuccess (printLines (file.grep updateFlag))) := by
  have named : otaCommand.line ≠ [] := Command.line_ne_nil rfl (by decide)
  refine Program.Ensures.bind (executeCmd_report (by decide) named) ?_
  rintro _ buffer ⟨_, answer, rfl, read⟩
  have printed : ∀ (file : TextFile), file.FlagFits → ∀ rest,
      (⟨.popen otaCommand, some (printLines (file.grep updateFlag))⟩ : Event os) ∈
        pipe otaCommand answer ++ rest →
      (∀ other answer', (⟨.popen other, answer'⟩ : Event os) ∉ rest) →
        cstr buffer = printLines (file.grep updateFlag) := by
    intro file fits rest member quiet
    rcases List.mem_append.mp member with early | late
    · obtain ⟨_, same⟩ := popen_mem_pipe.mp early
      rw [read, ← same]
      exact report_text (file.clean_grep _) (Nat.lt_succ_of_le fits)
    · exact absurd late (quiet _ _)
  split
  · rename_i blank
    intro file fits member
    have text := printed file fits [] member fun _ _ => List.not_mem_nil
    rw [← text, blank]
    exact iff_of_false Bool.false_ne_true fun success => absurd success.1 (by decide)
  · have scanned : (scanUpdateFlag (cstr buffer)).Ensures fun trace word =>
        (∀ other answer', (⟨.popen other, answer'⟩ : Event os) ∉ trace) ∧
          word = (sscanfWord flagPrefix (cstr buffer)).getD [] := by
      have same : sscanfWord (ascii "updateFlag=") (cstr buffer) =
        sscanfWord flagPrefix (cstr buffer) := rfl
      unfold scanUpdateFlag
      split
      · rename_i none
        exact ⟨fun _ _ => List.not_mem_nil, by rw [← same, none]; rfl⟩
      · rename_i word found
        exact fun _ => ⟨by simp, by rw [← same, found]; rfl⟩
    refine Program.Ensures.bind scanned ?_
    rintro trace _ ⟨quiet, rfl⟩ file fits member
    have text := printed file fits (trace ++ []) member (by simpa using quiet)
    rw [← text]
    exact scanned_eq_success_iff _

/-- Printed lines are the first one, a newline and the others. -/
theorem printLines_cons (line : Bytes) (others : List Bytes) :
    printLines (line :: others) = line ++ newline :: printLines others :=
  List.append_assoc line [newline] _

/-- The prefix stands in front of printed lines exactly when it does in front of the first. -/
theorem flagPrefix_printLines (line : Bytes) (others : List Bytes) :
    flagPrefix <+: printLines (line :: others) ↔ isFlagLine line = true := by
  rw [printLines_cons, isFlagLine, decide_eq_true_eq]
  constructor
  · intro front
    rcases Nat.lt_or_ge line.length flagPrefix.length with short | long
    · -- the prefix would reach over the newline
      have whole : line ++ [newline] <+: line ++ newline :: printLines others :=
        ⟨printLines others, by simp⟩
      have inside := List.prefix_of_prefix_length_le whole front (List.length_append.trans_le short)
      have member : newline ∈ flagPrefix := inside.subset (by simp)
      exact absurd member (by decide)
    · exact List.prefix_of_prefix_length_le front (List.prefix_append _ _) long
  · exact fun front => front.trans (List.prefix_append _ _)

/-- The words behind the prefix: those of the first line, and those of the others. -/
theorem words_behindPrefix {line : Bytes} (key : isFlagLine line = true) (others : List Bytes) :
    words isSpace (behindPrefix (printLines (line :: others))) =
      words isSpace (behindPrefix line) ++ words isSpace (printLines others) := by
  have front : flagPrefix <+: line := of_decide_eq_true key
  rw [behindPrefix, printLines_cons, List.drop_append_of_le_length front.length_le]
  exact words_append_separator rfl _ _

/-- The first word of printed lines is that of the first one, unless it is blank. -/
theorem firstWord_printLines {line : Bytes} (filled : words isSpace line ≠ []) (others : List Bytes) :
    firstWord isSpace (printLines (line :: others)) = firstWord isSpace line := by
  rw [firstWord, printLines_cons, words_append_separator rfl, firstWord]
  cases split : words isSpace line with
  | nil => exact absurd split filled
  | cons word rest => rfl

/-- A line that names the key is not blank. -/
theorem words_of_mem_grep {line : Bytes} (listed : line ∈ file.grep updateFlag) :
    words isSpace line ≠ [] := by
  have name : updateFlag <:+: line := of_decide_eq_true (List.mem_filter.mp listed).2
  have inner : ∀ byte ∈ updateFlag, isSpace byte = false :=
    List.forall_iff_forall_mem.mp (by decide)
  obtain ⟨word, member, _⟩ := (isInfix_iff_mem_words (by decide) inner line).mp name
  exact List.ne_nil_of_mem member

/-- The printed lines say success as the key does exactly where no other line disturbs it. -/
theorem saysSuccess_iff_flag (file : TextFile) :
    (saysSuccess (printLines (file.grep updateFlag)) ↔ file.flag = some updateSuccess) ↔
      FlagUndisturbed file := by
  have found : file.flag = ((file.grep updateFlag).find? isFlagLine).map fun line =>
      firstWord isSpace (behindPrefix line) := congrArg _ file.find_grep.symm
  have some_success : [] ≠ updateSuccess := by decide
  have named : ∀ line ∈ file.grep updateFlag, words isSpace line ≠ [] := fun _ => words_of_mem_grep
  unfold FlagUndisturbed
  cases lines : file.grep updateFlag with
  | nil =>
    rw [lines] at found
    refine iff_of_true (iff_of_false (fun success => absurd success.1 (by decide)) ?_) trivial
    rw [found]
    exact Option.some_ne_none _ ∘ Eq.symm
  | cons line others =>
    rw [lines] at found named
    have front := flagPrefix_printLines line others
    simp only [saysSuccess, front]
    cases key : isFlagLine line with
    | false => simp
    | true =>
      have value : file.flag = some (firstWord isSpace (behindPrefix line)) := by
        rw [found, List.find?_cons_of_pos key]
        rfl
      simp only [value, Option.some.injEq, true_and, ↓reduceIte, firstWord, words_behindPrefix key]
      cases split : words isSpace (behindPrefix line) with
      | cons word rest => simp
      | nil =>
        -- the value is taken from the next line
        rw [List.nil_append, List.headD_nil, iff_false_right some_success, forall_prop_of_true rfl]
        cases others with
        | nil => exact iff_of_true some_success fun next member => by cases member
        | cons next others =>
          have first := firstWord_printLines (named next (by simp)) others
          change ¬firstWord isSpace (printLines (next :: others)) = updateSuccess ↔ _
          rw [first]
          simp [firstWord]

/-- `getOtaResult` returns what the key says if and only if no other line that contains its name
disturbs it. -/
theorem getOtaResult_iff (file : TextFile) : getOtaResult.Ensures fun trace result =>
    file.FlagFits → ⟨.popen otaCommand, some (printLines (file.grep updateFlag))⟩ ∈ trace →
      ((result = true ↔ file.flag = some updateSuccess) ↔ FlagUndisturbed file) := by
  refine getOtaResult_ensures.mono fun trace result asked fits member => ?_
  rw [asked file fits member]
  exact saysSuccess_iff_flag file

/-- A file with a comment in front of the key. -/
def commentedFile : TextFile where
  lines := [ascii "# updateFlag is set by the updater", ascii "updateFlag=UPDATE_SUCCESS"]
  isText := List.forall_iff_forall_mem.mp (by decide)

/-- A comment in front of the key hides its success. -/
theorem not_getOtaResult : ¬∀ file : TextFile, getOtaResult.Ensures fun trace result =>
    file.FlagFits → ⟨.popen otaCommand, some (printLines (file.grep updateFlag))⟩ ∈ trace →
      (result = true ↔ file.flag = some updateSuccess) := by
  intro reads
  obtain ⟨rest, result, run⟩ : ∃ rest result, getOtaResult.Runs
      (⟨.popen otaCommand, some (printLines (commentedFile.grep updateFlag))⟩ :: rest) result :=
    @Program.exists_runs_ask os _ _ (.popen otaCommand) _ _
  have fits : commentedFile.FlagFits := by decide
  have asked := Program.ensures_iff.mp getOtaResult_ensures _ _ run _ fits List.mem_cons_self
  have right := Program.ensures_iff.mp (reads commentedFile) _ _ run fits List.mem_cons_self
  have success := asked.mp (right.mpr (by decide))
  exact absurd success.1 (by decide)

end Rjcore
