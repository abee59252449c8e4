import Rjcore.Interaction.Sequence
import Rjcore.Text.Digits
import Rjcore.Verif.Operands

/-!
# The mode of a file

`chmodFile` changes the mode of a file first and judges afterwards, by comparing the mode
string with the digits that `stat` prints. The comparison understands strings of three and
four octal digits only. `chmod` understands many others, and then the file is changed while
the method reports a failure.
-/

namespace Rjcore

open Interaction CText RjcoreService

/-- The permission bits of a file, with the three special bits in front. -/
abbrev FileMode : Type := Fin 4096

/-- A run of octal digits. -/
def Octal (text : Bytes) : Prop := text ≠ [] ∧ ∀ digit ∈ text, digit ∈ ascii "01234567"

/-- What the shell and the `chmod` tool together make of the text that is spliced in for the mode:
the shell may split it or expand it before the tool sees it. -/
structure Chmod where
  /-- The bits that a mode string asks for on a file with some bits; nothing when it is not
  understood. -/
  asks : Bytes → FileMode → Option FileMode
  /-- Octal digits ask for the bits they are, however many there are. -/
  octal : ∀ text before, Octal text → ∀ bits : FileMode, numeralValue 8 text = bits.val →
    asks text before = some bits

/-- How the tool ends, and the bits it leaves: those asked for, or the bits before where it
does not understand the mode or was not started. -/
inductive Applies (tool : Chmod) (mode : Bytes) (before : FileMode) : WaitStatus → FileMode → Prop
  | understood {after : FileMode} (asked : tool.asks mode before = some after) :
    Applies tool mode before (.exited 0) after
  | refused {code : UInt8} (failure : code ≠ 0) (unknown : tool.asks mode before = none) :
    Applies tool mode before (.exited code) before
  | notStarted : Applies tool mode before .failed before

/-- The digit of a number below eight. -/
def octalDigit (value : Nat) : UInt8 := UInt8.ofNat (48 + value)

/-- The four octal digits of the bits. -/
def octalDigits (bits : FileMode) : Bytes :=
  [octalDigit (bits.val / 512), octalDigit (bits.val / 64 % 8), octalDigit (bits.val / 8 % 8),
    octalDigit (bits.val % 8)]

/-- A file that exists and is no directory, under a path that the shell takes literally: the
line of `chmod` changes its bits, the pipelines of `stat` print them. -/
def fileWorld (tool : Chmod) (dialect : Shell.Dialect) (path : Bytes) : World os FileMode
  | bits, .access other, found, after => after = bits ∧ (other = path → found = true)
  | bits, .opendir other, isDir, after => after = bits ∧ (other = path → isDir = false)
  | bits, .system command, status, after => dialect.plainText false path = true →
    ∀ mode, command.line = (chmodCommand mode path).printed → Applies tool mode bits status after
  | bits, .popen command, output, after => after = bits ∧ (dialect.plainText false path = true →
    (command.line = (statCommand3 path).printed →
      output = some ((octalDigits bits).drop 1 ++ [newline])) ∧
    (command.line = (statCommand4 path).printed →
      output = some (octalDigits bits ++ [newline])))
  | bits, _, _, after => after = bits

/-- The command succeeded. -/
def ChmodSucceeded (steps : List (FileMode × Event os)) : Prop :=
  ∃ bits command, (bits, (⟨.system command, .exited 0⟩ : Event os)) ∈ steps

/-- `true` is reported exactly when the command succeeded and the bits are now those asked for,
and after `false` they are what they were. -/
def ReportsTruthfully (tool : Chmod) (mode : Bytes) (before : FileMode)
    (steps : List (FileMode × Event os)) (reported : Bool) (after : FileMode) : Prop :=
  (reported = true ↔ ChmodSucceeded steps ∧ tool.asks mode before = some after) ∧
    (reported = false → after = before)

section Digits

variable {bits : FileMode} {mode : Bytes}

/-- A digit below eight. -/
theorem octalDigit_spec {value : Nat} (small : value < 8) :
    octalDigit value ∈ ascii "01234567" ∧ digitValue (octalDigit value) = value := by
  have all : ∀ digit : Fin 8, octalDigit digit.val ∈ ascii "01234567" ∧
      digitValue (octalDigit digit.val) = digit.val := by decide
  exact all ⟨value, small⟩

/-- An octal digit has a value below eight and is the digit of it. -/
theorem digitValue_octal {digit : UInt8} (octal : digit ∈ ascii "01234567") :
    digitValue digit < 8 ∧ octalDigit (digitValue digit) = digit := by
  have all : ∀ digit ∈ ascii "01234567",
      digitValue digit < 8 ∧ octalDigit (digitValue digit) = digit :=
    List.forall_iff_forall_mem.mp (by decide)
  exact all digit octal

/-- The printed digits are octal and have no NUL. -/
theorem octalDigits_octal (bits : FileMode) : ∀ digit ∈ octalDigits bits,
    digit ∈ ascii "01234567" := by
  have bound := bits.isLt
  intro digit member
  simp only [octalDigits, List.mem_cons, List.not_mem_nil, or_false] at member
  rcases member with rfl | rfl | rfl | rfl
  · exact (octalDigit_spec (by omega)).1
  · exact (octalDigit_spec (by omega)).1
  · exact (octalDigit_spec (by omega)).1
  · exact (octalDigit_spec (by omega)).1

/-- The value of four digits. -/
theorem numeralValue_four (a b c d : UInt8) :
    numeralValue 8 [a, b, c, d] =
      512 * digitValue a + 64 * digitValue b + 8 * digitValue c + digitValue d := by
  simp only [numeralValue, List.foldl_cons, List.foldl_nil]
  omega

/-- Four octal digits are the digits of their value. -/
theorem octalDigits_four {a b c d : UInt8} (octal : ∀ digit ∈ [a, b, c, d], digit ∈ ascii "01234567") :
    ∃ bits : FileMode, numeralValue 8 [a, b, c, d] = bits.val ∧ octalDigits bits = [a, b, c, d] := by
  obtain ⟨smallA, shownA⟩ := digitValue_octal (octal a (by simp))
  obtain ⟨smallB, shownB⟩ := digitValue_octal (octal b (by simp))
  obtain ⟨smallC, shownC⟩ := digitValue_octal (octal c (by simp))
  obtain ⟨smallD, shownD⟩ := digitValue_octal (octal d (by simp))
  have value := numeralValue_four a b c d
  have bound : numeralValue 8 [a, b, c, d] < 4096 := by omega
  refine ⟨⟨_, bound⟩, rfl, ?_⟩
  have first : numeralValue 8 [a, b, c, d] / 512 = digitValue a := by omega
  have second : numeralValue 8 [a, b, c, d] / 64 % 8 = digitValue b := by omega
  have third : numeralValue 8 [a, b, c, d] / 8 % 8 = digitValue c := by omega
  have fourth : numeralValue 8 [a, b, c, d] % 8 = digitValue d := by omega
  rw [octalDigits, first, second, third, fourth, shownA, shownB, shownC, shownD]

/-- What the check finds equal to the mode string: the four digits, or the last three. -/
def Shown (bits : FileMode) (mode : Bytes) : Prop :=
  mode = octalDigits bits ∨ mode = (octalDigits bits).drop 1

/-- Only three or four octal digits are ever found equal. -/
theorem Shown.octal (shown : Shown bits mode) : OctalMode mode := by
  rcases shown with rfl | rfl
  · exact ⟨.inr rfl, octalDigits_octal bits⟩
  · exact ⟨.inl rfl, fun digit member => octalDigits_octal bits digit (List.mem_of_mem_drop member)⟩

/-- Three or four octal digits are found equal after a change to the bits they are. -/
theorem OctalMode.shown (octal : OctalMode mode) :
    ∃ bits : FileMode, numeralValue 8 mode = bits.val ∧ Shown bits mode := by
  obtain ⟨length, digits⟩ := octal
  rcases length with three | four
  · obtain ⟨b, c, d, rfl⟩ := List.length_eq_three.mp three
    have padded : ∀ digit ∈ [48, b, c, d], digit ∈ ascii "01234567" := by
      intro digit member
      rcases List.mem_cons.mp member with rfl | later
      · decide
      · exact digits digit later
    obtain ⟨bits, value, printed⟩ := octalDigits_four padded
    refine ⟨bits, (numeralValue_zeros 8 1 [b, c, d]).symm.trans value, .inr ?_⟩
    rw [printed]
    rfl
  · match mode, four with
    | [a, b, c, d], _ =>
      obtain ⟨bits, value, printed⟩ := octalDigits_four digits
      exact ⟨bits, value, .inl printed.symm⟩

/-- Three or four octal digits are always understood. -/
theorem OctalMode.asks (octal : OctalMode mode) (tool : Chmod) (before : FileMode) :
    ∃ bits, tool.asks mode before = some bits ∧ Shown bits mode := by
  obtain ⟨bits, value, shown⟩ := octal.shown
  have some_mode : mode ≠ [] := octal.oneWord.1.1
  exact ⟨bits, tool.octal mode before ⟨some_mode, octal.2⟩ bits value, shown⟩

end Digits

section Check

variable {tool : Chmod} {dialect : Shell.Dialect} {path mode : Bytes} {bits : FileMode}

/-- No command is run for its effect. -/
def Looks (steps : List (FileMode × Event os)) : Prop :=
  ∀ step ∈ steps, ∀ command status, step.2 ≠ ⟨.system command, status⟩

/-- A command that prints a known short text. -/
theorem executeCmd_prints {command : Command} {output : Bytes} (named : command.line ≠ [])
    (prints : ∀ answer after, fileWorld tool dialect path bits (.popen command) answer after →
      after = bits ∧ answer = some output)
    (short : output.length < size1KHalf) (clean : nul ∉ output) :
    (executeCmd command (zeros size1KHalf) size1KHalf).Within (fileWorld tool dialect path) bits
      fun steps buffer after => after = bits ∧ Looks steps ∧ cstr buffer = output := by
  rw [executeCmd, if_neg named]
  intro answer middle moves
  obtain ⟨rfl, rfl⟩ := prints answer middle moves
  intro _ after closed
  refine ⟨closed, ?_, ?_⟩
  · intro step member command status same
    rcases List.mem_cons.mp member with rfl | rest
    · cases same
    · cases List.mem_singleton.mp rest
      cases same
  · have text := (readLoop_fresh (show 0 < size1KHalf by decide) output).2
    rw [text, captured, capture_of_noNul le_rfl (by decide) clean]
    exact List.take_of_length_le (by omega)

/-- A comparison of a mode string with digits that a command prints. -/
theorem compare_within {command : Command} {digits : Bytes} (named : command.line ≠ [])
    (prints : ∀ answer after, fileWorld tool dialect path bits (.popen command) answer after →
      after = bits ∧ answer = some (digits ++ [newline]))
    (few : digits.length ≤ 4) (octal : ∀ digit ∈ digits, digit ∈ ascii "01234567")
    (length : mode.length = digits.length) :
    (executeCmd command (zeros size1KHalf) size1KHalf >>= fun checkMode =>
      pure (strncmpEq digits.length (cstr checkMode) mode)).Within (fileWorld tool dialect path) bits
        fun steps same after => after = bits ∧ Looks steps ∧ (same = true ↔ mode = digits) := by
  have short : (digits ++ [newline]).length < size1KHalf := by
    have half : size1KHalf = 512 := rfl
    rw [List.length_append, List.length_singleton, half]
    omega
  have clean : nul ∉ digits ++ [newline] := by
    intro member
    rcases List.mem_append.mp member with digit | last
    · exact absurd (octal nul digit) (by decide)
    · exact absurd (List.mem_singleton.mp last) (by decide)
  refine (executeCmd_prints named prints short clean).bind fun steps buffer after ran => ?_
  obtain ⟨rfl, looks, text⟩ := ran
  refine ⟨rfl, (List.append_nil steps).symm ▸ looks, ?_⟩
  rw [strncmpEq, decide_eq_true_eq, text, List.take_left, List.take_of_length_le length.le]
  exact eq_comm

/-- The check looks at the bits and compares. -/
theorem checkFileMode_within (plain : dialect.plainText false path = true)
    (fits3 : (statCommand3 path).Fits) (fits4 : (statCommand4 path).Fits) (bits : FileMode) :
    (checkFileMode path mode mode.length).Within (fileWorld tool dialect path) bits
      fun steps same after => after = bits ∧ Looks steps ∧ (same = true ↔ Shown bits mode) := by
  have length : (octalDigits bits).length = 4 := rfl
  have dropped : ((octalDigits bits).drop 1).length = 3 := rfl
  have octal := octalDigits_octal bits
  obtain ⟨named3, named4⟩ := statCommand_ne_nil path
  unfold checkFileMode
  by_cases three : mode.length = 3
  · rw [if_pos three]
    have shown : Shown bits mode ↔ mode = (octalDigits bits).drop 1 := by
      apply or_iff_right
      intro four
      rw [four, length] at three
      contradiction
    rw [shown]
    apply compare_within named3 _ (by omega) (fun digit member => octal digit
      (List.mem_of_mem_drop member)) (three.trans dropped.symm)
    exact fun answer after moves => ⟨moves.1, (moves.2 plain).1 (Command.line_of_fits fits3)⟩
  · rw [if_neg three]
    by_cases four : mode.length = 4
    · rw [if_pos four]
      have shown : Shown bits mode ↔ mode = octalDigits bits := by
        apply or_iff_left
        intro last
        rw [last] at three
        exact three dropped
      rw [shown]
      apply compare_within named4 _ (by omega) octal (four.trans length.symm)
      exact fun answer after moves => ⟨moves.1, (moves.2 plain).2 (Command.line_of_fits fits4)⟩
    · rw [if_neg four]
      refine ⟨rfl, fun step member => absurd member List.not_mem_nil, ?_⟩
      apply iff_of_false Bool.false_ne_true
      intro shown
      have digits := shown.octal.1
      omega

/-- A mode string is determined by the line of `chmod`. -/
theorem chmodCommand_injective {other : Bytes}
    (same : (chmodCommand mode path).printed = (chmodCommand other path).printed) :
    mode = other := by
  have lines : ascii "chmod " ++ (mode ++ (ascii " " ++ (path ++ []))) =
      ascii "chmod " ++ (other ++ (ascii " " ++ (path ++ []))) := same
  exact List.append_cancel_right (List.append_cancel_left lines)

/-- The two pipelines are different lines. -/
theorem statCommand_ne : (statCommand3 path).printed ≠ (statCommand4 path).printed := by
  intro same
  rw [statCommand3_printed, statCommand4_printed] at same
  have tails := List.append_cancel_left (List.append_cancel_left same)
  exact absurd (List.append_right_eq_self.mp tails) (by decide)

/-- The world has an answer to everything a program may ask. -/
theorem fileWorld_able (bits : FileMode) (op : Op) :
    ∃ answer after, fileWorld tool dialect path bits op answer after := by
  cases op with
  | access _ => exact ⟨true, bits, rfl, fun _ => rfl⟩
  | opendir _ => exact ⟨false, bits, rfl, fun _ => rfl⟩
  | system _ => exact ⟨.failed, bits, fun _ _ _ => .notStarted⟩
  | popen command =>
    by_cases three : command.line = (statCommand3 path).printed
    · exact ⟨_, bits, rfl, fun _ => ⟨fun _ => rfl, fun four =>
        absurd (three.symm.trans four) statCommand_ne⟩⟩
    · exact ⟨_, bits, rfl, fun _ => ⟨fun same => absurd same three, fun _ => rfl⟩⟩
  | fopen _ _ => exact ⟨none, bits, rfl⟩
  | signal _ => exact ⟨.default, bits, rfl⟩
  | propertyGet _ => exact ⟨.unset, bits, rfl⟩
  | time => exact ⟨(0 : Int), bits, rfl⟩
  | statfs _ => exact ⟨none, bits, rfl⟩
  | «open» _ => exact ⟨true, bits, rfl⟩
  | ioctl _ _ => exact ⟨none, bits, rfl⟩
  | uninitialized => exact ⟨Vector.replicate 512 0, bits, rfl⟩
  | _ => exact ⟨(), bits, rfl⟩

/-- What only looks adds no success. -/
theorem Looks.succeeded {first rest : List (FileMode × Event os)} (looks : Looks rest) :
    ChmodSucceeded (first ++ rest) ↔ ChmodSucceeded first := by
  constructor
  · rintro ⟨bits, command, member⟩
    rcases List.mem_append.mp member with before | behind
    · exact ⟨bits, command, before⟩
    · exact absurd rfl (looks _ behind command _)
  · rintro ⟨bits, command, member⟩
    exact ⟨bits, command, List.mem_append_left _ member⟩

/-- An operation that is no command adds no success. -/
theorem succeeded_cons {op : Op} {answer : op.Answer} (quiet : op.command? = none)
    (steps : List (FileMode × Event os)) :
    ChmodSucceeded ((bits, ⟨op, answer⟩) :: steps) ↔ ChmodSucceeded steps := by
  constructor
  · rintro ⟨before, command, member⟩
    rcases List.mem_cons.mp member with same | later
    · cases same
      contradiction
    · exact ⟨before, command, later⟩
  · rintro ⟨before, command, member⟩
    exact ⟨before, command, List.mem_cons_of_mem _ member⟩

/-- The tool is run once. -/
theorem mySystem_within (plain : dialect.plainText false path = true)
    (fits : (chmodCommand mode path).Fits) (before : FileMode) :
    (mySystem (chmodCommand mode path)).Within (fileWorld tool dialect path) before
      fun steps ret after => ∃ status, Applies tool mode before status after ∧
        ret = status.value ∧ (ChmodSucceeded steps ↔ status = .exited 0) := by
  have command := chmodCommand_line_ne_nil mode path
  rw [mySystem, if_neg command]
  intro saved middle still status after changes _ final restored
  obtain rfl : middle = before := still
  obtain rfl : final = after := restored
  refine ⟨status, changes plain mode (Command.line_of_fits fits), rfl, ?_⟩
  rw [succeeded_cons rfl]
  constructor
  · rintro ⟨bits, other, member⟩
    rcases List.mem_cons.mp member with same | later
    · cases same
      rfl
    · cases List.mem_singleton.mp later
  · rintro rfl
    exact ⟨middle, chmodCommand mode path, List.mem_cons_self⟩

/-- The result of `mySystem` is negative exactly when the tool was not started. -/
theorem Applies.value_neg {before after : FileMode} {status : WaitStatus}
    (applies : Applies tool mode before status after) : status.value < 0 ↔ status = .failed := by
  cases applies with
  | understood _ => exact iff_of_false (by decide) (by simp)
  | @refused code _ _ =>
    refine iff_of_false ?_ (by simp)
    change ¬(256 * (code.toNat : Int) < 0)
    omega
  | notStarted => exact iff_of_true (by decide) rfl

end Check

variable {platform : Platform} {tool : Chmod} {dialect : Shell.Dialect} {path mode : String16}

/-- The method runs the tool once and then looks at the bits it left. -/
theorem chmodFile_within (named : mode ≠ utf16 "")
    (plain : dialect.plainText false (platform.string path) = true)
    (fits : (chmodCommand (platform.string mode) (platform.string path)).Fits)
    (fits3 : (statCommand3 (platform.string path)).Fits)
    (fits4 : (statCommand4 (platform.string path)).Fits) (before : FileMode) :
    (chmodFile platform path mode).Within (fileWorld tool dialect (platform.string path)) before
      fun steps reported after => ∃ status,
        Applies tool (platform.string mode) before status after ∧
        (ChmodSucceeded steps ↔ status = .exited 0) ∧
        (reported = true ↔ status ≠ .failed ∧ Shown after (platform.string mode)) := by
  rw [chmodFile, if_neg named]
  intro found middle opens
  obtain ⟨rfl, exists_path⟩ := opens
  obtain rfl := exists_path rfl
  intro isDir middle opens
  obtain ⟨rfl, is_file⟩ := opens
  obtain rfl := is_file rfl
  change Program.Within _ (mySystem (chmodCommand _ _) >>= _) _ _
  refine Program.Within.bind (mySystem_within plain fits middle) fun first ret after ran => ?_
  obtain ⟨status, applies, rfl, succeeded⟩ := ran
  by_cases failed : status = .failed
  · rw [if_pos (applies.value_neg.mpr failed)]
    refine ⟨status, applies, ?_, ?_⟩
    · rw [List.append_nil, succeeded_cons rfl, succeeded_cons rfl]
      exact succeeded
    · exact iff_of_false Bool.false_ne_true fun judged => judged.1 failed
  · rw [if_neg (applies.value_neg.not.mpr failed)]
    refine (checkFileMode_within plain fits3 fits4 after).mono fun steps same final looked => ?_
    obtain ⟨rfl, looks, shown⟩ := looked
    refine ⟨status, applies, ?_, ?_⟩
    · rw [succeeded_cons rfl, succeeded_cons rfl, looks.succeeded]
      exact succeeded
    · exact shown.trans (iff_and_self.mpr fun _ => failed)

/-- The command lines fit their buffers. -/
def ShortEnough (path mode : Bytes) : Prop :=
  (chmodCommand mode path).Fits ∧ (statCommand3 path).Fits ∧ (statCommand4 path).Fits

/-- Four hundred bytes of path and mode are short enough. -/
theorem shortEnough_of_length {path mode : Bytes} (few : path.length + mode.length ≤ 400) :
    ShortEnough path mode := by
  have pipe : modePipe.length ≤ 60 := by decide
  have sed : sedPipe.length ≤ 20 := by decide
  have name : (ascii "stat ").length = 5 := by decide
  refine ⟨?_, ?_, ?_⟩
  · change (ascii "chmod " ++ (mode ++ (ascii " " ++ (path ++ ([] ++ []))))).length < 1024
    have chmod : (ascii "chmod ").length = 6 := by decide
    have blank : (ascii " ").length = 1 := by decide
    simp only [List.length_append, List.length_nil, chmod, blank]
    omega
  · rw [Command.Fits, statCommand3_printed]
    change _ < 512
    simp only [List.length_append, name]
    omega
  · rw [Command.Fits, statCommand4_printed]
    change _ < 512
    simp only [List.length_append, name]
    omega

/-- A mode that is not understood, or that is three or four octal digits, is reported
truthfully. -/
theorem truthful_of_judged {text : Bytes} {before after : FileMode} {reported : Bool}
    {status : WaitStatus} {steps : List (FileMode × Event os)}
    (sound : tool.asks text before = none ∨ OctalMode text)
    (applies : Applies tool text before status after)
    (succeeded : ChmodSucceeded steps ↔ status = .exited 0)
    (judged : reported = true ↔ status ≠ .failed ∧ Shown after text) :
    ReportsTruthfully tool text before steps reported after := by
  cases applies with
  | understood asked =>
    have octal : OctalMode text := by
      rcases sound with unknown | octal
      · rw [unknown] at asked
        contradiction
      · exact octal
    obtain ⟨bits, same, shown⟩ := octal.asks tool before
    obtain rfl : bits = after := Option.some.inj (same.symm.trans asked)
    have positive : reported = true := judged.mpr ⟨by simp, shown⟩
    refine ⟨iff_of_true positive ⟨succeeded.mpr rfl, asked⟩, fun negative => ?_⟩
    rw [positive] at negative
    contradiction
  | refused failure unknown =>
    have unsuccessful : ¬ChmodSucceeded steps := fun success => by simpa [failure] using succeeded.mp success
    have negative : ¬reported = true := by
      intro positive
      obtain ⟨bits, asked, _⟩ := (judged.mp positive).2.octal.asks tool before
      rw [unknown] at asked
      contradiction
    exact ⟨iff_of_false negative fun success => unsuccessful success.1, fun _ => rfl⟩
  | notStarted =>
    have unsuccessful : ¬ChmodSucceeded steps := fun success => by simpa using succeeded.mp success
    have negative : ¬reported = true := fun positive => (judged.mp positive).1 rfl
    exact ⟨iff_of_false negative fun success => unsuccessful success.1, fun _ => rfl⟩

/-- A mode that is understood is reported truthfully only when it is three or four octal
digits. -/
theorem judged_of_truthful (named : mode ≠ utf16 "")
    (plain : dialect.plainText false (platform.string path) = true)
    (short : ShortEnough (platform.string path) (platform.string mode)) {before : FileMode}
    (truthful : (chmodFile platform path mode).Within
      (fileWorld tool dialect (platform.string path)) before
        (ReportsTruthfully tool (platform.string mode) before)) :
    tool.asks (platform.string mode) before = none ∨ OctalMode (platform.string mode) := by
  obtain ⟨fits, fits3, fits4⟩ := short
  cases asked : tool.asks (platform.string mode) before with
  | none => exact .inl rfl
  | some bits =>
    -- the run in which the tool is started and succeeds
    rw [chmodFile, if_neg named] at truthful
    have later := truthful true before ⟨rfl, fun _ => rfl⟩ false before ⟨rfl, fun _ => rfl⟩
    change Program.Within _ (mySystem (chmodCommand _ _) >>= _) _ _ at later
    rw [mySystem, if_neg (chmodCommand_line_ne_nil _ _)] at later
    have applies : ∀ other, (chmodCommand (platform.string mode) (platform.string path)).line =
        (chmodCommand other (platform.string path)).printed →
          Applies tool other before (.exited 0) bits := by
      intro other same
      rw [Command.line_of_fits fits] at same
      rw [← chmodCommand_injective same]
      exact .understood asked
    have judged := later .default before rfl (.exited 0) bits (fun _ => applies) .default bits rfl
    have looked := @checkFileMode_within tool dialect _ (platform.string mode) plain fits3 fits4 bits
    obtain ⟨steps, reported, after, report, rfl, _, shown⟩ :=
      (judged.and looked).exists_run fileWorld_able
    have positive : reported = true := report.1.mpr
      ⟨⟨before, _, .tail _ (.tail _ (.tail _ (.head _)))⟩, asked⟩
    exact .inr (shown.mp positive).octal

/-- `chmodFile` reports truthfully if and only if `chmod` does not understand the mode, or the
mode is three or four octal digits. -/
theorem reportsTruthfully_iff (platform : Platform) (tool : Chmod) (dialect : Shell.Dialect)
    (path mode : String16) (before : FileMode) (named : mode ≠ utf16 "")
    (plain : dialect.plainText false (platform.string path) = true)
    (short : ShortEnough (platform.string path) (platform.string mode)) :
    (chmodFile platform path mode).Within (fileWorld tool dialect (platform.string path)) before
        (ReportsTruthfully tool (platform.string mode) before) ↔
      tool.asks (platform.string mode) before = none ∨ OctalMode (platform.string mode) := by
  refine ⟨judged_of_truthful named plain short, fun sound => ?_⟩
  have runs := @chmodFile_within platform tool dialect path mode named plain short.1 short.2.1
    short.2.2 before
  refine runs.mono fun steps reported after ran => ?_
  obtain ⟨status, applies, succeeded, judged⟩ := ran
  exact truthful_of_judged sound applies succeeded judged

/-- A tool that understands octal modes only. -/
def octalTool : Chmod where
  asks text _ :=
    if !text.isEmpty && text.all (· ∈ ascii "01234567") then
      if small : numeralValue 8 text < 4096 then some ⟨numeralValue 8 text, small⟩ else none
    else none
  octal text _ octal bits value := by
    have small : numeralValue 8 text < 4096 := value.trans_lt bits.isLt
    have understood : (!text.isEmpty && text.all (· ∈ ascii "01234567")) = true := by
      simpa [Octal] using octal
    rw [if_pos understood, dif_pos small]
    exact congrArg some (Fin.ext value)

/-- Three octal digits are reported truthfully. -/
theorem reportsTruthfully_744 :
    (chmodFile (.plain false) (utf16 "/data/testFile") (utf16 "744")).Within
      (fileWorld octalTool Shell.posix (ascii "/data/testFile")) 384
        (ReportsTruthfully octalTool (ascii "744") 384) := by
  have octal : OctalMode (ascii "744") := ⟨.inl rfl, List.forall_iff_forall_mem.mp (by decide)⟩
  exact (reportsTruthfully_iff (.plain false) octalTool Shell.posix (utf16 "/data/testFile")
    (utf16 "744") 384 (by decide) (by decide) (shortEnough_of_length (by decide))).mpr (.inr octal)

/-- Five octal digits change the file, and a failure is reported. -/
theorem not_reportsTruthfully :
    ¬∀ (platform : Platform) (tool : Chmod) (dialect : Shell.Dialect) (path mode : String16)
      (before : FileMode), mode ≠ utf16 "" →
        dialect.plainText false (platform.string path) = true →
          ShortEnough (platform.string path) (platform.string mode) →
            (chmodFile platform path mode).Within
              (fileWorld tool dialect (platform.string path)) before
                (ReportsTruthfully tool (platform.string mode) before) := by
  intro truthful
  have named : utf16 "00744" ≠ utf16 "" := by decide
  have plain : Shell.posix.plainText false ((Platform.plain false).string (utf16 "/data/a")) = true := by
    decide
  have short : ShortEnough ((Platform.plain false).string (utf16 "/data/a"))
      ((Platform.plain false).string (utf16 "00744")) :=
    shortEnough_of_length (by decide)
  have judged := judged_of_truthful named plain short
    (truthful (.plain false) octalTool Shell.posix _ _ 384 named plain short)
  have text : (Platform.plain false).string (utf16 "00744") = ascii "00744" := by decide
  have digits : Octal (ascii "00744") := ⟨by decide, List.forall_iff_forall_mem.mp (by decide)⟩
  have asked : octalTool.asks (ascii "00744") 384 = some 484 :=
    octalTool.octal (ascii "00744") 384 digits 484 (by decide)
  rw [text, asked] at judged
  rcases judged with unknown | octal
  · exact absurd unknown (Option.some_ne_none 484)
  · exact absurd octal.1 (by decide)

end Rjcore
