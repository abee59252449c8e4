import Rjcore.Text.Digits
import Rjcore.Text.Lexemes
import Rjcore.Verif.Commands

/-!
# The checks of an address

`ping_block` and `checkIpConflict_block` print a string of the client into a command line. They
refuse it first unless it is an address, and `ping_block` refuses numbers that would be taken
for options. What is left fits the buffer and is split by every shell into the words of the
format string.
-/

namespace Rjcore

open Interaction CText RjcoreService

/-- A check of an address. -/
inductive AddressCheck
  | ping (count timeout deadline : Int32)
  | conflict

namespace AddressCheck

/-- The method. -/
def run (platform : Platform) (ip : String16) : AddressCheck → Program os String16
  | .ping count timeout deadline => ping_block platform ip count timeout deadline
  | .conflict => checkIpConflict_block platform ip

/-- The name of the command that checks. -/
def commandName : AddressCheck → Bytes
  | .ping _ _ _ => ascii "ping"
  | .conflict => ascii "checkip"

end AddressCheck

/-- A word is the decimal text of a number. -/
structure Denotes (word : Bytes) (number : Int32) : Prop where
  /-- There is a digit. -/
  some_digit : word ≠ []
  /-- There is nothing else. -/
  digits : ∀ byte ∈ word, isDigit byte = true
  /-- They have the value of the number. -/
  value : digitsValue word = number.toInt

/-- The words of the format string of a check, with the address and the numbers in place. -/
inductive WordsOfCheck (address : Bytes) : AddressCheck → List Shell.Lexeme → Prop
  | ping {count timeout deadline : Int32} {c w d : Bytes} (some_packet : 1 ≤ count.toInt)
      (timeout_positive : 0 ≤ timeout.toInt) (deadline_positive : 0 ≤ deadline.toInt)
      (count_word : Denotes c count) (timeout_word : Denotes w timeout)
      (deadline_word : Denotes d deadline) : WordsOfCheck address (.ping count timeout deadline)
        [.word (ascii "ping"), .word (ascii "-c"), .word c, .word (ascii "-W"), .word w,
          .word (ascii "-w"), .word d, .word address,
          .operator 124, .word (ascii "grep"), .word (ascii "transmitted")]
  | conflict : WordsOfCheck address .conflict
      [.word (ascii "checkip"), .word address, .word (ascii "-s"),
        .operator 124, .word (ascii "grep"), .word (ascii "srcMac"),
        .operator 124, .word (ascii "awk"), .word (ascii "\x7bprint $2\x7d")]

/-- A run does not check and reports nothing, or it runs one checking command, whose line is not
truncated and is split into the words of the format string with the validated address. -/
def ClosesLine (platform : Platform) (dialect : Shell.Dialect) (ip : String16)
    (check : AddressCheck) (trace : List (Event os)) (result : String16) : Prop :=
  (result = utf16 "" ∧
    ∀ event ∈ trace, ∀ command ∈ event.op.command?, ¬check.commandName <+: command.line) ∨
  ∃ command, (∃ answer, ⟨.popen command, answer⟩ ∈ trace) ∧
    (∀ event ∈ trace, ∀ other ∈ event.op.command?,
      check.commandName <+: other.line → other = command) ∧
    checkIpaddr platform (platform.string ip) = true ∧ command.Fits ∧
    ∃ words, Shell.lexemes dialect command.line = some words ∧
      WordsOfCheck (platform.string ip) check words

/-- The command of `ping_block`. -/
def pingCommand (address : Bytes) (count timeout deadline : Int32) : Command :=
  .printf size1K "ping -c %d -W %d -w %d %s | grep transmitted"
    [.value (decimal count.toInt), .value (decimal timeout.toInt),
      .value (decimal deadline.toInt), .client address]

/-- The command of `checkIpConflict_block`. -/
def checkipCommand (address : Bytes) : Command :=
  .printf size1K "checkip %s -s | grep srcMac | awk '\x7bprint $2\x7d'" [.client address]

section Lines

variable {platform : Platform} {dialect : Shell.Dialect} {address : Bytes}

/-- An accepted address is a word of its own. -/
theorem proper_address (accepted : checkIpaddr platform address = true) :
    (Shell.Item.bare address).Proper dialect :=
  have ⟨some_byte, _, ordinary⟩ := checkIpaddr_spec accepted
  dialect.plainText_ordinary (.inr some_byte) ordinary

/-- The text of a number is a word of its own. -/
theorem Denotes.proper {word : Bytes} {number : Int32} (denotes : Denotes word number) :
    (Shell.Item.bare word).Proper dialect := by
  have digits : ∀ byte ∈ ascii "0123456789",
      byte ∈ ascii "0123456789ABCDEFGHIJKLMNOPQRSTUVWXYZabcdefghijklmnopqrstuvwxyz./:_-" :=
    List.forall_iff_forall_mem.mp (by decide)
  exact dialect.plainText_ordinary (.inr denotes.some_digit) fun byte member =>
    digits byte (mem_of_isDigit (denotes.digits byte member))

/-- A number that is not negative is printed as it is meant. -/
theorem denotes_decimal {number : Int32} (positive : 0 ≤ number.toInt) :
    Denotes (decimal number.toInt) number :=
  have ⟨some_digit, digits, value⟩ := decimal_spec positive
  ⟨some_digit, digits, value⟩

/-- A word of the program is a word of its own. -/
theorem proper_text {text : Bytes} (some_text : text ≠ []) (ordinary : text.Forall (· ∈
      ascii "0123456789ABCDEFGHIJKLMNOPQRSTUVWXYZabcdefghijklmnopqrstuvwxyz./:_-")) :
    (Shell.Item.bare text).Proper dialect :=
  dialect.plainText_ordinary (.inr some_text) (List.forall_iff_forall_mem.mp ordinary)

/-- The pipe is an operator. -/
theorem proper_pipe : (Shell.Item.operator 124).Proper dialect :=
  show Shell.isOperator 124 = true by decide

/-- The line of `checkIpConflict_block`. -/
theorem checkipCommand_spec (accepted : checkIpaddr platform address = true) :
    (checkipCommand address).Fits ∧ ∃ words,
      Shell.lexemes dialect (checkipCommand address).line = some words ∧
        WordsOfCheck address .conflict words := by
  let items : List Shell.Item := [.bare (ascii "checkip"), .bare address, .bare (ascii "-s"),
    .operator 124, .bare (ascii "grep"), .bare (ascii "srcMac"), .operator 124,
    .bare (ascii "awk"), .quoted (ascii "\x7bprint $2\x7d")]
  have printed : (checkipCommand address).printed = Shell.Item.line items := rfl
  have fits : (checkipCommand address).Fits := by
    have short := (checkIpaddr_spec accepted).2.1
    change (ascii "checkip " ++ (address ++
      (ascii " -s | grep srcMac | awk '\x7bprint $2\x7d'" ++ []))).length < 1024
    simp only [List.length_append]
    change 8 + (address.length + (36 + 0)) < 1024
    omega
  refine ⟨fits, _, ?_, .conflict⟩
  rw [Command.line_of_fits fits, printed]
  refine Shell.lexemes_line (List.forall_iff_forall_mem.mp ?_)
  exact ⟨proper_text (by decide) (by decide), proper_address accepted,
    proper_text (by decide) (by decide), proper_pipe, proper_text (by decide) (by decide),
    proper_text (by decide) (by decide), proper_pipe, proper_text (by decide) (by decide),
    show 39 ∉ ascii "\x7bprint $2\x7d" by decide⟩

/-- What `ping_block` prints, for any texts of the numbers. -/
def pingItems (c w d address : Bytes) : List Shell.Item :=
  [.bare (ascii "ping"), .bare (ascii "-c"), .bare c, .bare (ascii "-W"), .bare w,
    .bare (ascii "-w"), .bare d, .bare address,
    .operator 124, .bare (ascii "grep"), .bare (ascii "transmitted")]

/-- The items are printed with blanks between them. -/
theorem pingItems_line (c w d address : Bytes) : Shell.Item.line (pingItems c w d address) =
    ascii "ping -c " ++ (c ++ (ascii " -W " ++ (w ++ (ascii " -w " ++ (d ++ (ascii " " ++
      (address ++ (ascii " | grep transmitted" ++ [])))))))) := rfl

/-- The line of `ping_block`. -/
theorem pingCommand_spec (accepted : checkIpaddr platform address = true)
    {count timeout deadline : Int32} (some_packet : 1 ≤ count.toInt)
    (timeout_positive : 0 ≤ timeout.toInt) (deadline_positive : 0 ≤ deadline.toInt) :
    (pingCommand address count timeout deadline).Fits ∧ ∃ words,
      Shell.lexemes dialect (pingCommand address count timeout deadline).line = some words ∧
        WordsOfCheck address (.ping count timeout deadline) words := by
  have count_word := denotes_decimal (show 0 ≤ count.toInt by omega)
  have timeout_word := denotes_decimal timeout_positive
  have deadline_word := denotes_decimal deadline_positive
  have printed : (pingCommand address count timeout deadline).printed = Shell.Item.line
      (pingItems (decimal count.toInt) (decimal timeout.toInt) (decimal deadline.toInt) address) :=
    (pingItems_line _ _ _ _).symm
  have fits : (pingCommand address count timeout deadline).Fits := by
    have short := (checkIpaddr_spec accepted).2.1
    have ten : ∀ number : Int32, 0 ≤ number.toInt → (decimal number.toInt).length ≤ 10 :=
      fun number positive => decimal_length_le positive (Int.le_of_lt_add_one number.toInt_lt)
    have count_short := ten count (by omega)
    have timeout_short := ten timeout timeout_positive
    have deadline_short := ten deadline deadline_positive
    rw [Command.Fits, printed, pingItems_line]
    simp only [List.length_append]
    change 8 + ((decimal count.toInt).length + (4 + ((decimal timeout.toInt).length +
      (4 + ((decimal deadline.toInt).length + (1 + (address.length + (19 + 0)))))))) < 1024
    omega
  refine ⟨fits, _, ?_, .ping some_packet timeout_positive deadline_positive count_word timeout_word
    deadline_word⟩
  rw [Command.line_of_fits fits, printed]
  refine Shell.lexemes_line (List.forall_iff_forall_mem.mp ?_)
  exact ⟨proper_text (by decide) (by decide), proper_text (by decide) (by decide),
    count_word.proper, proper_text (by decide) (by decide), timeout_word.proper,
    proper_text (by decide) (by decide), deadline_word.proper, proper_address accepted, proper_pipe,
    proper_text (by decide) (by decide), proper_text (by decide) (by decide)⟩

end Lines

section Runs

variable {platform : Platform} {dialect : Shell.Dialect} {ip : String16} {check : AddressCheck}

/-- A report is made of what one command prints. -/
theorem reportText_ensures {command : Command} (named : command.line ≠ []) :
    (reportText platform command).Ensures fun trace _ => ∃ answer, trace = pipe command answer := by
  refine Program.Ensures.bind (executeCmd_report (by decide) named) ?_
  rintro _ _ ⟨_, answer, rfl, _⟩
  split
  · exact ⟨answer, List.append_nil _⟩
  · exact ⟨answer, List.append_nil _⟩

/-- The command of `getNetcardState`. -/
def netcardCommand : Command :=
  .literal "ethtool eth0 | grep \"Link detected:\" | awk '\x7bprint $3\x7d'"

/-- `getNetcardState` runs its command. -/
theorem getNetcardState_ensures :
    getNetcardState.Ensures fun trace _ => ∃ answer, trace = pipe netcardCommand answer := by
  refine Program.Ensures.bind (executeCmd_report (by decide)
    (Command.line_ne_nil rfl (by decide))) ?_
  rintro _ _ ⟨_, answer, rfl, _⟩
  exact ⟨answer, List.append_nil _⟩

/-- The command of a pipe. -/
theorem command_of_mem_pipe {command other : Command} {answer : Option Bytes} {event : Event os}
    (member : event ∈ pipe command answer) (handed : other ∈ event.op.command?) :
    other = command := by
  rcases List.mem_cons.mp member with rfl | closed
  · exact (Option.mem_some_iff.mp handed).symm
  · cases answer with
    | none => cases closed
    | some output =>
      rw [List.mem_singleton.mp closed] at handed
      cases handed

/-- A run whose last command is one that checks, and fits, closes its line. -/
theorem ClosesLine.of_command {before : List (Event os)} {command : Command}
    {answer : Option Bytes} {result : String16}
    (others : ∀ event ∈ before, ∀ other ∈ event.op.command?, ¬check.commandName <+: other.line)
    (accepted : checkIpaddr platform (platform.string ip) = true)
    (closed : command.Fits ∧ ∃ words, Shell.lexemes dialect command.line = some words ∧
      WordsOfCheck (platform.string ip) check words) :
    ClosesLine platform dialect ip check (before ++ pipe command answer) result := by
  refine .inr ⟨command, ⟨answer, ?_⟩, fun event member other handed named => ?_, accepted, closed⟩
  · exact List.mem_append_right _ (popen_mem_pipe.mpr ⟨rfl, rfl⟩)
  · rcases List.mem_append.mp member with first | last
    · exact absurd named (others event first other handed)
    · exact command_of_mem_pipe last handed

/-- Every run of a check closes its line: it reports nothing and does not check, or what it runs
is a whole command line that every shell splits into the words of the format string. -/
theorem addressChecks_close (platform : Platform) (dialect : Shell.Dialect) (ip : String16)
    (check : AddressCheck) :
    (check.run platform ip).Ensures (ClosesLine platform dialect ip check) := by
  have refuses : ClosesLine platform dialect ip check [] (utf16 "") :=
    .inl ⟨rfl, fun _ member => absurd member List.not_mem_nil⟩
  cases check with
  | ping count timeout deadline =>
    change (ping_block platform ip count timeout deadline).Ensures _
    unfold ping_block
    split
    · exact refuses
    rename_i accepted
    rw [Bool.not_eq_false] at accepted
    split
    · exact refuses
    rename_i numbers
    simp only [not_or, Int32.lt_iff_toInt_lt, Int32.le_iff_toInt_le] at numbers
    obtain ⟨some_packet, timeout_positive, deadline_positive⟩ := numbers
    have closed := @pingCommand_spec platform dialect _ accepted count timeout deadline
      (Int.not_le.mp some_packet) (Int.not_lt.mp timeout_positive) (Int.not_lt.mp deadline_positive)
    refine (reportText_ensures (Command.printf_line_ne_nil rfl (by decide) (by decide))).mono ?_
    rintro trace result ⟨answer, rfl⟩
    exact @ClosesLine.of_command _ _ _ _ [] _ _ _ (fun _ member => absurd member List.not_mem_nil)
      accepted closed
  | conflict =>
    change (checkIpConflict_block platform ip).Ensures _
    unfold checkIpConflict_block
    split
    · exact refuses
    rename_i accepted
    rw [Bool.not_eq_false] at accepted
    have closed := @checkipCommand_spec platform dialect _ accepted
    refine Program.Ensures.bind getNetcardState_ensures ?_
    rintro _ up ⟨state, rfl⟩
    have others : ∀ event ∈ pipe netcardCommand state, ∀ other ∈ event.op.command?,
        ¬AddressCheck.conflict.commandName <+: other.line := by
      intro event member other handed
      rw [command_of_mem_pipe member handed]
      decide
    cases up with
    | false =>
      refine .inl ⟨rfl, ?_⟩
      rw [List.append_nil]
      exact others
    | true =>
      refine (reportText_ensures (Command.printf_line_ne_nil rfl (by decide) (by decide))).mono ?_
      rintro trace result ⟨answer, rfl⟩
      exact ClosesLine.of_command others accepted closed

end Runs

end Rjcore
