import Rjcore.Text.Words
import Rjcore.Verif.Commands

/-!
# The operands of the file commands

`access` and `opendir` see the whole path, while the commands are printed into buffers of
1024 and 512 bytes. A longer path is cut, and the command names another file. The buffer of
`checkFileMode` is the shorter one, so `chmodFile` and `chmodDir` may change one file and
look at another.
-/

namespace Rjcore

open Interaction CText RjcoreService

/-- The command line up to the first operator. -/
def simpleCommand (line : Bytes) : Bytes := line.takeWhile fun byte => !Shell.isOperator byte

/-- A word that a command takes for an option. -/
def isOption (word : Bytes) : Bool := word.head? = some 45 && word ≠ [45]

/-- The file a command line names: the first argument behind the options, or for `chmod` the
one behind the mode. A line of `stat` that is cut inside the filter behind it counts as naming its
path, although the shell then refuses to run it. -/
def operand (line : Bytes) : Option Bytes :=
  match words Shell.isBlank (simpleCommand line) with
  | [] => none
  | name :: arguments =>
    let named := arguments.dropWhile isOption
    if name = ascii "chmod" then named[1]? else named[0]?

/-- A mode of three or four octal digits. -/
def OctalMode (mode : Bytes) : Prop :=
  (mode.length = 3 ∨ mode.length = 4) ∧ ∀ digit ∈ mode, digit ∈ ascii "01234567"

/-- The methods that change a file. -/
inductive FileTask
  | rmFile (path : String16)
  | chmodFile (path mode : String16)
  | chmodDir (path mode : String16)

namespace FileTask

/-- The path a client gave. -/
def path : FileTask → String16
  | .rmFile path | .chmodFile path _ | .chmodDir path _ => path

/-- The method. -/
def run (platform : Platform) : FileTask → Program os Bool
  | .rmFile path => RjcoreService.rmFile platform path
  | .chmodFile path mode => RjcoreService.chmodFile platform path mode
  | .chmodDir path mode => RjcoreService.chmodDir platform path mode

/-- The mode, if there is one, has three or four octal digits. -/
def ModeIsOctal (platform : Platform) : FileTask → Prop
  | .rmFile _ => True
  | .chmodFile _ mode | .chmodDir _ mode => OctalMode (platform.string mode)

/-- The longest path that all commands of the method hold. -/
def longest : FileTask → Nat
  | .rmFile _ => 1017
  | .chmodFile _ _ | .chmodDir _ _ => 506

end FileTask

/-- Every command of the method names exactly the path. -/
def NamesWholePath (platform : Platform) (task : FileTask) : Prop :=
  (task.run platform).Ensures fun trace _ => ∀ event ∈ trace, ∀ command ∈ event.op.command?,
    operand command.line = some (platform.string task.path)

section Operand

variable {front path back : Bytes}

/-- A path is one word behind the others. -/
def OneWord (path : Bytes) : Prop :=
  path ≠ [] ∧ ∀ byte ∈ path, Shell.isBlank byte = false ∧ Shell.isOperator byte = false

/-- What is printed behind a path ends the command at once, or after a blank. -/
def EndsCommand (back : Bytes) : Prop := simpleCommand back = [] ∨ simpleCommand back = [32]

/-- Text without operators stands in front of the rest of a simple command. -/
theorem simpleCommand_append (clean : ∀ byte ∈ front, Shell.isOperator byte = false) (back : Bytes) :
    simpleCommand (front ++ back) = front ++ simpleCommand back := by
  apply List.takeWhile_append_of_pos
  intro byte member
  rw [clean byte member]
  rfl

/-- A path without blanks and operators is one word behind the others. -/
theorem words_simpleCommand (clean : ∀ byte ∈ front, Shell.isOperator byte = false)
    (one : OneWord path) (ends : EndsCommand back) :
    words Shell.isBlank (simpleCommand (front ++ 32 :: (path ++ back))) =
      words Shell.isBlank front ++ [path] := by
  have run : words Shell.isBlank path = [path] := by
    rw [words_run fun byte member => (one.2 byte member).1]
    cases path with
    | nil => exact absurd rfl one.1
    | cons byte path => rfl
  have single : words Shell.isBlank (path ++ simpleCommand back) = [path] := by
    rcases ends with ended | blank
    · rw [ended, List.append_nil, run]
    · have divided := @words_append_separator _ Shell.isBlank 32 rfl path []
      rw [blank, divided, run]
      rfl
  have blank : simpleCommand (32 :: (path ++ back)) = 32 :: simpleCommand (path ++ back) := rfl
  have rest := simpleCommand_append (fun byte member => (one.2 byte member).2) back
  rw [simpleCommand_append clean, blank, rest, words_append_separator rfl, single]

/-- The words in front of the path make the operand the path, unless it is an option. -/
def Names (front : Bytes) : Prop :=
  ∀ path back, OneWord path → EndsCommand back →
    operand (front ++ 32 :: (path ++ back)) = if isOption path then none else some path

/-- `rm -f` and `stat` name what follows. -/
theorem names_of_words {name : Bytes} {options : List Bytes}
    (clean : ∀ byte ∈ front, Shell.isOperator byte = false)
    (split : words Shell.isBlank front = name :: options)
    (skipped : ∀ option ∈ options, isOption option = true) (other : name ≠ ascii "chmod") :
    Names front := by
  intro path back one ends
  rw [operand, words_simpleCommand clean one ends, split]
  simp only [List.cons_append, if_neg other, List.dropWhile_append_of_pos skipped]
  cases option : isOption path with
  | true => simp [List.dropWhile, option]
  | false => simp [List.dropWhile, option]

/-- A command that prints a path into its buffer names it exactly when the path is no option
and fits. -/
theorem operand_iff {command : Command} (printed : command.printed = front ++ 32 :: (path ++ back))
    (names : Names front) (one : OneWord path) (ends : ∀ count, EndsCommand (back.take count))
    (room : front.length + 2 < command.size) :
    operand command.line = some path ↔
      isOption path = false ∧ front.length + 1 + path.length < command.size := by
  rw [Command.line, printed, snprintf, List.take_append, List.take_of_length_le (by omega)]
  obtain ⟨count, size⟩ : ∃ count, command.size - 1 - front.length = count + 1 :=
    ⟨command.size - 1 - front.length - 1, by omega⟩
  rw [size, List.take_succ_cons, List.take_append]
  by_cases fits : path.length ≤ count
  · -- the whole path, and some of what follows
    rw [List.take_of_length_le fits, names path _ one (ends _)]
    have whole : front.length + 1 + path.length < command.size := by omega
    cases option : isOption path with
    | true => simp
    | false => simpa using whole
  · -- a shorter path
    have shorter : path.take count ≠ path := by
      intro same
      have length := congrArg List.length same
      rw [List.length_take] at length
      omega
    have cut : OneWord (path.take count) := by
      refine ⟨?_, fun byte member => one.2 byte (List.mem_of_mem_take member)⟩
      rw [Ne, List.take_eq_nil_iff, not_or]
      exact ⟨by omega, one.1⟩
    have nothing : back.take (count - path.length) = back.take 0 := by
      rw [Nat.sub_eq_zero_of_le (by omega)]
    rw [names _ _ cut (nothing ▸ ends 0)]
    constructor
    · split
      · intro none
        contradiction
      · exact fun same => absurd (Option.some.inj same) shorter
    · intro whole
      omega

/-- The front of a pipe ends the command before it. -/
theorem endsCommand_pipe (rest : Bytes) (count : Nat) :
    EndsCommand ((32 :: 124 :: rest).take count) := by
  match count with
  | 0 => exact .inl rfl
  | 1 => exact .inr rfl
  | _ + 2 => exact .inr rfl

end Operand

section Literal

variable {dialect : Shell.Dialect} {path mode : Bytes}

/-- A plain string has no blanks and no operators. -/
theorem plainText_clean {begun : Bool} (plain : dialect.plainText begun path = true) :
    ∀ byte ∈ path, Shell.isBlank byte = false ∧ Shell.isOperator byte = false := by
  induction path generalizing begun with
  | nil => exact fun byte member => absurd member List.not_mem_nil
  | cons first path ih =>
    simp only [Shell.Dialect.plainText, Shell.Dialect.plainByte, Bool.and_eq_true,
      Bool.not_eq_true'] at plain
    obtain ⟨⟨⟨⟨⟨blank, operator⟩, _⟩, _⟩, _⟩, rest⟩ := plain
    intro byte member
    rcases List.mem_cons.mp member with rfl | later
    · exact ⟨blank, operator⟩
    · exact ih rest byte later

/-- A plain path is one word. -/
theorem oneWord_of_plain (plain : dialect.plainText false path = true) : OneWord path := by
  refine ⟨?_, plainText_clean plain⟩
  rintro rfl
  contradiction

/-- An octal mode is one word and no option. -/
theorem OctalMode.oneWord (octal : OctalMode mode) : OneWord mode ∧ isOption mode = false := by
  have digit : ∀ byte ∈ mode, Shell.isBlank byte = false ∧ Shell.isOperator byte = false ∧
      byte ≠ 45 := by
    have each : ∀ byte ∈ ascii "01234567",
        Shell.isBlank byte = false ∧ Shell.isOperator byte = false ∧ byte ≠ 45 :=
      List.forall_iff_forall_mem.mp (by decide)
    exact fun byte member => each byte (octal.2 byte member)
  have some_mode : mode ≠ [] := by
    rintro rfl
    exact absurd octal.1 (by decide)
  refine ⟨⟨some_mode, fun byte member => ⟨(digit byte member).1, (digit byte member).2.1⟩⟩, ?_⟩
  cases mode with
  | nil => exact absurd rfl some_mode
  | cons first mode =>
    have other := (digit first List.mem_cons_self).2.2
    simp [isOption, other]

/-- `rm` names the path exactly when it is no option and fits. -/
theorem operand_rm (one : OneWord path) :
    operand (rmCommand path).line = some path ↔ isOption path = false ∧ path.length ≤ 1017 := by
  have printed : (rmCommand path).printed = ascii "rm -f" ++ 32 :: (path ++ []) := by
    change ascii "rm -f " ++ (path ++ ([] ++ [])) = _
    rw [List.append_nil]
    rfl
  have names : Names (ascii "rm -f") :=
    @names_of_words _ (ascii "rm") [ascii "-f"] (List.forall_iff_forall_mem.mp (by decide))
      (by decide) (by decide) (by decide)
  have whole := operand_iff printed names one (fun count => .inl (by rw [List.take_nil]; rfl))
    (show 5 + 2 < size1K by decide)
  have size : (rmCommand path).size = 1024 := rfl
  have name : (ascii "rm -f").length = 5 := rfl
  rw [whole, size, name]
  apply and_congr_right
  intro _
  omega

/-- `stat` names the path exactly when it is no option and fits. -/
theorem operand_stat {command : Command} {rest : Bytes}
    (printed : command.printed = ascii "stat" ++ 32 :: (path ++ 32 :: 124 :: rest))
    (size : command.size = size1KHalf) (one : OneWord path) :
    operand command.line = some path ↔ isOption path = false ∧ path.length ≤ 506 := by
  have names : Names (ascii "stat") :=
    @names_of_words _ (ascii "stat") [] (List.forall_iff_forall_mem.mp (by decide))
      (by decide) (by decide) (by decide)
  have whole := operand_iff printed names one (endsCommand_pipe rest)
    (show 4 + 2 < command.size by rw [size]; decide)
  have half : size1KHalf = 512 := rfl
  have name : (ascii "stat").length = 4 := rfl
  rw [whole, size, half, name]
  apply and_congr_right
  intro _
  omega

/-- `chmod` names a path that fits. -/
theorem operand_chmod {command : Command} {options : List Bytes} {front : Bytes}
    (printed : command.printed = front ++ 32 :: (mode ++ 32 :: path))
    (clean : ∀ byte ∈ front, Shell.isOperator byte = false)
    (split : words Shell.isBlank front = ascii "chmod" :: options)
    (skipped : ∀ option ∈ options, isOption option = true) (octal : OctalMode mode)
    (one : OneWord path) (room : front.length + mode.length + path.length + 2 < command.size) :
    operand command.line = some path := by
  obtain ⟨word, noOption⟩ := octal.oneWord
  have fits : command.Fits := by
    rw [Command.Fits, printed]
    simp only [List.length_append, List.length_cons]
    omega
  have both : words Shell.isBlank (simpleCommand command.line) =
      words Shell.isBlank (front ++ 32 :: mode) ++ [path] := by
    have cleanBoth : ∀ byte ∈ front ++ 32 :: mode, Shell.isOperator byte = false := by
      intro byte member
      rcases List.mem_append.mp member with first | second
      · exact clean byte first
      · rcases List.mem_cons.mp second with rfl | digit
        · rfl
        · exact (word.2 byte digit).2
    have line := @words_simpleCommand _ _ [] cleanBoth one (.inl rfl)
    rw [Command.line_of_fits fits, printed]
    rwa [List.append_nil, List.append_assoc, List.cons_append] at line
  have front_words : words Shell.isBlank (front ++ 32 :: mode) =
      ascii "chmod" :: options ++ [mode] := by
    have single : words Shell.isBlank mode = [mode] := by
      rw [words_run fun byte member => (word.2 byte member).1]
      cases mode with
      | nil => exact absurd rfl word.1
      | cons byte mode => rfl
    rw [words_append_separator rfl, split, single]
  rw [operand, both, front_words]
  simp only [List.cons_append, List.append_assoc, List.dropWhile_append_of_pos skipped]
  simp [List.dropWhile, noOption]

/-- The commands of `chmodFile` and `chmodDir` name a path as long as `stat` allows. -/
theorem operand_change (octal : OctalMode mode) (one : OneWord path) (short : path.length ≤ 506) :
    operand (chmodCommand mode path).line = some path ∧
      operand (chmodDirCommand mode path).line = some path := by
  have digits : mode.length ≤ 4 := by
    have count := octal.1
    omega
  constructor
  · have printed : (chmodCommand mode path).printed =
        ascii "chmod" ++ 32 :: (mode ++ 32 :: path) := by
      change ascii "chmod " ++ (mode ++ (ascii " " ++ (path ++ ([] ++ [])))) = _
      rw [List.append_nil, List.append_nil]
      rfl
    apply @operand_chmod _ _ _ [] _ printed (List.forall_iff_forall_mem.mp (by decide))
      (by decide) (by decide) octal one
    change 5 + mode.length + path.length + 2 < 1024
    omega
  · have printed : (chmodDirCommand mode path).printed =
        ascii "chmod -R" ++ 32 :: (mode ++ 32 :: path) := by
      change ascii "chmod -R " ++ (mode ++ (ascii " " ++ (path ++ ([] ++ [])))) = _
      rw [List.append_nil, List.append_nil]
      rfl
    apply @operand_chmod _ _ _ [ascii "-R"] _ printed
      (List.forall_iff_forall_mem.mp (by decide)) (by decide) (by decide) octal one
    change 8 + mode.length + path.length + 2 < 1024
    omega

/-- The check names the path exactly when it is no option and fits. -/
theorem operand_check (octal : OctalMode mode) (one : OneWord path) :
    CheckCommand (fun command => operand command.line = some path) path mode ↔
      isOption path = false ∧ path.length ≤ 506 := by
  have three : operand (statCommand3 path).line = some path ↔
      isOption path = false ∧ path.length ≤ 506 := by
    have printed := statCommand3_printed path
    exact operand_stat printed rfl one
  have four : operand (statCommand4 path).line = some path ↔
      isOption path = false ∧ path.length ≤ 506 := by
    have printed := statCommand4_printed path
    exact operand_stat printed rfl one
  rw [CheckCommand, three, four]
  rcases octal.1 with digits | digits
  · rw [digits]
    simp
  · rw [digits]
    simp

end Literal

namespace FileTask

variable {platform : Platform} {task : FileTask}

/-- The commands of a method that changes a file. -/
theorem namesWholePath_iff_commands (one : OneWord (platform.string task.path))
    (mode : task.ModeIsOctal platform) :
    NamesWholePath platform task ↔
      isOption (platform.string task.path) = false ∧
        (platform.string task.path).length ≤ task.longest := by
  have some_path : task.path ≠ utf16 "" := by
    intro empty
    apply one.1
    rw [empty, platform.string_nil]
  have some_mode : ∀ mode : String16, OctalMode (platform.string mode) → mode ≠ utf16 "" := by
    intro mode octal empty
    apply octal.oneWord.1.1
    rw [empty, platform.string_nil]
  unfold NamesWholePath
  rw [← allCommands_iff]
  cases task with
  | rmFile path => exact (allCommands_rmFile some_path).trans (operand_rm one)
  | chmodFile path text =>
    have check := operand_check mode one
    refine (allCommands_chmodFile (some_mode text mode)).trans ?_
    constructor
    · exact fun names => check.mp names.2
    · exact fun fits => ⟨(operand_change mode one fits.2).1, check.mpr fits⟩
  | chmodDir path text =>
    have check := operand_check mode one
    have named : ¬(text = utf16 "" ∨ path = utf16 "") :=
      not_or.mpr ⟨some_mode text mode, some_path⟩
    refine (allCommands_chmodDir named).trans ?_
    constructor
    · exact fun names => check.mp names.2
    · exact fun fits => ⟨(operand_change mode one fits.2).2, check.mpr fits⟩

end FileTask

/-- The commands of a method name exactly the path, plain for the shell, if and only if it is
no option and no longer than the shortest buffer allows. -/
theorem namesWholePath_iff (platform : Platform) (dialect : Shell.Dialect) (task : FileTask)
    (plain : dialect.plainText false (platform.string task.path) = true)
    (mode : task.ModeIsOctal platform) :
    NamesWholePath platform task ↔
      isOption (platform.string task.path) = false ∧
        (platform.string task.path).length ≤ task.longest :=
  FileTask.namesWholePath_iff_commands (oneWord_of_plain plain) mode

/-- The mode of one short path. -/
theorem namesWholePath_short :
    NamesWholePath (.plain false) (.chmodFile (utf16 "/data/a") (utf16 "755")) := by
  have plain : Shell.posix.plainText false
      ((Platform.plain false).string (utf16 "/data/a")) = true := by decide
  have mode : OctalMode ((Platform.plain false).string (utf16 "755")) :=
    ⟨by decide, List.forall_iff_forall_mem.mp (by decide)⟩
  exact (namesWholePath_iff (.plain false) Shell.posix
    (.chmodFile (utf16 "/data/a") (utf16 "755")) plain mode).mpr (by decide)

/-- A path of 1018 bytes. -/
def longPath : String16 := utf16 "/" ++ List.replicate 1017 97

/-- The last byte of a path of 1018 bytes is cut off, and another file is removed. -/
theorem not_namesWholePath : ¬∀ (platform : Platform) (dialect : Shell.Dialect) (task : FileTask),
    dialect.plainText false (platform.string task.path) = true → task.ModeIsOctal platform →
      (platform.string task.path).length ≤ 4095 → NamesWholePath platform task := by
  intro names
  have bytes : ∀ byte ∈ (47 : UInt8) :: List.replicate 1017 97,
      byte ∈ ascii "/a" := by
    intro byte member
    rcases List.mem_cons.mp member with rfl | letter
    · decide
    · rw [List.eq_of_mem_replicate letter]
      decide
  have path : (Platform.plain false).string longPath = 47 :: List.replicate 1017 97 := by
    have narrow : (Platform.plain false).string8 longPath = 47 :: List.replicate 1017 97 :=
      congrArg (List.cons 47) (List.map_replicate (f := UInt16.toUInt8))
    rw [Platform.string, narrow]
    exact cstr_of_noNul fun member => absurd (bytes nul member) (by decide)
  have plain : Shell.posix.plainText false ((Platform.plain false).string longPath) = true := by
    have ordinary : ∀ byte ∈ ascii "/a", byte ∈
        ascii "0123456789ABCDEFGHIJKLMNOPQRSTUVWXYZabcdefghijklmnopqrstuvwxyz./:_-" :=
      List.forall_iff_forall_mem.mp (by decide)
    rw [path]
    exact Shell.posix.plainText_ordinary (.inr (List.cons_ne_nil _ _)) fun byte member =>
      ordinary byte (bytes byte member)
  have length : ((Platform.plain false).string longPath).length = 1018 := by
    rw [path, List.length_cons, List.length_replicate]
  have whole := names (.plain false) Shell.posix (.rmFile longPath) plain trivial
    (length.trans_le (by decide))
  have short := ((@FileTask.namesWholePath_iff_commands _ (.rmFile longPath)
    (oneWord_of_plain plain) trivial).mp whole).2
  change ((Platform.plain false).string longPath).length ≤ 1017 at short
  omega

end Rjcore
