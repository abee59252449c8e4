import Rjcore.Service.Dispatch

/-!
# The commands of a program

A property of every command that a program may hand to the shell, in whatever run, follows
the structure of the program.
-/

namespace Rjcore

open Interaction CText RjcoreService

/-- The command an operation hands to the shell. -/
def Op.command? : Op → Option Command
  | .system command | .popen command => some command
  | _ => none

variable {α β : Type}

/-- Every command a program may run satisfies a property. -/
def AllCommands (P : Command → Prop) : Program os α → Prop
  | .done _ => True
  | .ask op next => (∀ command ∈ op.command?, P command) ∧ ∀ answer, AllCommands P (next answer)

variable {P : Command → Prop}

/-- These are the commands of all runs. -/
theorem allCommands_iff {program : Program os α} :
    AllCommands P program ↔ program.Ensures fun trace _ =>
      ∀ event ∈ trace, ∀ command ∈ event.op.command?, P command := by
  induction program with
  | done value => exact iff_of_true trivial fun event member => absurd member List.not_mem_nil
  | ask op next ih =>
    constructor
    · rintro ⟨own, later⟩ answer
      refine ((ih answer).mp (later answer)).mono fun trace value rest event member => ?_
      rcases List.mem_cons.mp member with rfl | behind
      · exact own
      · exact rest event behind
    · intro runs
      constructor
      · obtain ⟨answer⟩ : Nonempty (os.Answer op) := inferInstance
        obtain ⟨trace, value, run⟩ := @Program.exists_runs os _ _ (next answer)
        exact Program.ensures_iff.mp (runs answer) trace value run ⟨op, answer⟩ List.mem_cons_self
      · intro answer
        refine (ih answer).mpr ((runs answer).mono fun trace value rest event member => ?_)
        exact rest event (List.mem_cons_of_mem _ member)

/-- An operation that is no command may be left out. -/
theorem allCommands_ask {op : Op} (quiet : op.command? = none) (next : op.Answer → Program os α) :
    AllCommands P (.ask op next) ↔ ∀ answer, AllCommands P (next answer) := by
  refine and_iff_right fun command member => ?_
  rw [quiet] at member
  contradiction

/-- The commands of a sequence are those of its parts. -/
theorem AllCommands.bind {program : Program os α} {next : α → Program os β}
    (first : AllCommands P program) (second : ∀ value, AllCommands P (next value)) :
    AllCommands P (program >>= next) := by
  induction program with
  | done value => exact second value
  | ask op rest ih => exact ⟨first.1, fun answer => ih answer (first.2 answer)⟩

/-- Where nothing that follows runs a command, the commands are those of the first part. -/
theorem allCommands_bind_of_quiet {program : Program os α} {next : α → Program os β}
    (quiet : ∀ value, AllCommands P (next value)) :
    AllCommands P (program >>= next) ↔ AllCommands P program := by
  refine ⟨fun whole => ?_, fun first => first.bind quiet⟩
  induction program with
  | done value => trivial
  | ask op rest ih => exact ⟨whole.1, fun answer => ih answer (whole.2 answer)⟩

/-- A lock adds no commands. -/
theorem allCommands_withLock (mutex : Mutex) (body : Program os α) :
    AllCommands P (withLock mutex body) ↔ AllCommands P body := by
  have unlocked : ∀ value : α, AllCommands P (do perform (.unlock mutex); pure value) :=
    fun value => (allCommands_ask rfl _).mpr fun _ => trivial
  have locked := @allCommands_ask _ P (.lock mutex) rfl fun _ => do
    let result ← body
    perform (.unlock mutex)
    pure result
  refine locked.trans ⟨fun whole => ?_, fun own _ => ?_⟩
  · exact (allCommands_bind_of_quiet unlocked).mp (whole ())
  · exact (allCommands_bind_of_quiet unlocked).mpr own

/-- What a fresh buffer holds for an answer of the shell. -/
def filled (size : Nat) : Option Bytes → Bytes
  | none => zeros size
  | some output => readLoop output.length (zeros size) 0 size output

/-- The command of `executeCmd`, and those that follow whatever it printed. -/
theorem allCommands_executeCmd {cmd : Command} (command : cmd.line ≠ []) (size : Nat)
    (next : Bytes → Program os α) :
    AllCommands P (executeCmd cmd (zeros size) size >>= next) ↔
      P cmd ∧ ∀ answer, AllCommands P (next (filled size answer)) := by
  rw [executeCmd, if_neg command]
  constructor
  · rintro ⟨own, later⟩
    refine ⟨own cmd rfl, fun answer => ?_⟩
    cases answer with
    | none => exact later none
    | some output => exact (later (some output)).2 ()
  · rintro ⟨own, later⟩
    refine ⟨fun other same => Option.some.inj same ▸ own, fun answer => ?_⟩
    cases answer with
    | none => exact later none
    | some output =>
      exact (allCommands_ask rfl _).mpr fun _ => later (some output)

/-- The command of `mySystem`, and those that follow however it ended. -/
theorem allCommands_mySystem {cmd : Command} (command : cmd.line ≠ [])
    (next : Int → Program os α) :
    AllCommands P (mySystem cmd >>= next) ↔
      P cmd ∧ ∀ status : WaitStatus, AllCommands P (next status.value) := by
  rw [mySystem, if_neg command]
  constructor
  · rintro ⟨_, later⟩
    obtain ⟨own, ended⟩ := later .default
    exact ⟨own cmd rfl, fun status => (ended status).2 .default⟩
  · rintro ⟨own, later⟩
    refine (allCommands_ask rfl _).mpr fun saved => ⟨?_, fun status => ?_⟩
    · exact fun other same => Option.some.inj same ▸ own
    · exact (allCommands_ask rfl _).mpr fun _ => later status

/-- The string of no text. -/
theorem Platform.string_nil (platform : Platform) : platform.string (utf16 "") = [] :=
  congrArg cstr (platform.string8_ascii [] fun _ member => absurd member List.not_mem_nil)

section Files

variable {platform : Platform} {path mode : String16}

/-- The command of `rmFile`. -/
def rmCommand (path : Bytes) : Command := .printf size1K "rm -f %s" [.client path]

/-- The command of `chmodFile`. -/
def chmodCommand (mode path : Bytes) : Command :=
  .printf size1K "chmod %s %s" [.client mode, .client path]

/-- The command of `chmodFile` is not empty. -/
theorem chmodCommand_line_ne_nil (mode path : Bytes) : (chmodCommand mode path).line ≠ [] :=
  Command.printf_line_ne_nil rfl (by decide) (by decide)

/-- The command of `chmodDir`. -/
def chmodDirCommand (mode path : Bytes) : Command :=
  .printf size1K "chmod -R %s %s" [.client mode, .client path]

/-- The commands of `rmFile`. -/
theorem allCommands_rmFile (named : path ≠ utf16 "") :
    AllCommands P (rmFile platform path) ↔ P (rmCommand (platform.string path)) := by
  have command : (rmCommand (platform.string path)).line ≠ [] :=
    Command.printf_line_ne_nil rfl (by decide) (by decide)
  rw [rmFile, if_neg named]
  constructor
  · rintro ⟨_, later⟩
    obtain ⟨_, later⟩ := later true
    exact ((allCommands_mySystem command _).mp (later false)).1
  · intro own
    refine (allCommands_ask rfl _).mpr fun found => ?_
    cases found with
    | false => trivial
    | true =>
      refine (allCommands_ask rfl _).mpr fun isDir => ?_
      cases isDir with
      | true => trivial
      | false =>
        refine (allCommands_mySystem command _).mpr ⟨own, fun status => ?_⟩
        split <;> trivial

/-- What stands behind the path in the commands of `checkFileMode`. -/
def modePipe : Bytes := ascii " | head -n4 |tail -n1 | cut -d \"/\" -f1 | cut -d \"(\" -f2"

/-- What stands behind that where the mode has three digits. -/
def sedPipe : Bytes := ascii " |  sed 's/.//'"

/-- The parts of the command for three digits. -/
theorem statCommand3_parts (path : Bytes) : (statCommand3 path).parts =
    [.text (ascii "stat "), .client path, .text (modePipe ++ sedPipe)] := by
  have format : ascii
      "stat %s | head -n4 |tail -n1 | cut -d \"/\" -f1 | cut -d \"(\" -f2 |  sed 's/.//'" =
        ascii "stat " ++ 37 :: 115 :: (modePipe ++ sedPipe) := by decide
  change Part.expand [] (ascii _) _ = _
  rw [format, Command.expand_conversion (by decide), Command.expand_text (by decide)]
  rfl

/-- The parts of the command for four digits. -/
theorem statCommand4_parts (path : Bytes) : (statCommand4 path).parts =
    [.text (ascii "stat "), .client path, .text modePipe] := by
  have format : ascii "stat %s | head -n4 |tail -n1 | cut -d \"/\" -f1 | cut -d \"(\" -f2" =
      ascii "stat " ++ 37 :: 115 :: modePipe := by decide
  change Part.expand [] (ascii _) _ = _
  rw [format, Command.expand_conversion (by decide), Command.expand_text (by decide)]
  rfl

/-- What is printed for three digits. -/
theorem statCommand3_printed (path : Bytes) :
    (statCommand3 path).printed = ascii "stat " ++ (path ++ (modePipe ++ sedPipe)) := by
  rw [Command.printed, statCommand3_parts]
  simp [Part.bytes]

/-- What is printed for four digits. -/
theorem statCommand4_printed (path : Bytes) :
    (statCommand4 path).printed = ascii "stat " ++ (path ++ modePipe) := by
  rw [Command.printed, statCommand4_parts]
  simp [Part.bytes]

/-- The commands of `checkFileMode` are not empty. -/
theorem statCommand_ne_nil (path : Bytes) :
    (statCommand3 path).line ≠ [] ∧ (statCommand4 path).line ≠ [] := by
  have room : 1 < size1KHalf := by decide
  exact ⟨Command.line_ne_nil (statCommand3_parts path) room,
    Command.line_ne_nil (statCommand4_parts path) room⟩

/-- The command of `checkFileMode`, where the mode has three or four digits. -/
def CheckCommand (P : Command → Prop) (path mode : Bytes) : Prop :=
  (mode.length = 3 → P (statCommand3 path)) ∧ (mode.length = 4 → P (statCommand4 path))

/-- The commands of `checkFileMode`. -/
theorem allCommands_checkFileMode (path mode : Bytes) :
    AllCommands P (checkFileMode path mode mode.length) ↔ CheckCommand P path mode := by
  obtain ⟨first, second⟩ := statCommand_ne_nil path
  unfold checkFileMode CheckCommand
  split
  · rename_i three
    rw [allCommands_executeCmd first]
    constructor
    · exact fun own => ⟨fun _ => own.1, fun four => by omega⟩
    · exact fun own => ⟨own.1 three, fun _ => trivial⟩
  · rename_i notThree
    split
    · rename_i four
      rw [allCommands_executeCmd second]
      constructor
      · exact fun own => ⟨fun three => absurd three notThree, fun _ => own.1⟩
      · exact fun own => ⟨own.2 four, fun _ => trivial⟩
    · rename_i notFour
      exact iff_of_true trivial ⟨fun three => absurd three notThree, fun four => absurd four notFour⟩

/-- A change of a mode and the check behind it. -/
theorem allCommands_change {cmd : Command} (command : cmd.line ≠ []) (path mode : Bytes) :
    (AllCommands P do
      let ret ← mySystem cmd
      if ret < 0 then pure false else checkFileMode path mode mode.length) ↔
      P cmd ∧ CheckCommand P path mode := by
  rw [allCommands_mySystem command, ← allCommands_checkFileMode]
  refine and_congr_right fun own => ?_
  constructor
  · exact fun later => later (.exited 0)
  · intro check status
    split
    · trivial
    · exact check

/-- The commands of `chmodFile`. -/
theorem allCommands_chmodFile (some_mode : mode ≠ utf16 "") :
    AllCommands P (chmodFile platform path mode) ↔
      P (chmodCommand (platform.string mode) (platform.string path)) ∧
        CheckCommand P (platform.string path) (platform.string mode) := by
  have command := chmodCommand_line_ne_nil (platform.string mode) (platform.string path)
  have change := @allCommands_change P _ command (platform.string path) (platform.string mode)
  rw [chmodFile, if_neg some_mode, ← change]
  constructor
  · rintro ⟨_, later⟩
    obtain ⟨_, later⟩ := later true
    exact later false
  · intro own
    refine (allCommands_ask rfl _).mpr fun found => ?_
    cases found with
    | false => trivial
    | true =>
      refine (allCommands_ask rfl _).mpr fun isDir => ?_
      cases isDir with
      | true => trivial
      | false => exact own

/-- The commands of `chmodDir`. -/
theorem allCommands_chmodDir (named : ¬(mode = utf16 "" ∨ path = utf16 "")) :
    AllCommands P (chmodDir platform path mode) ↔
      P (chmodDirCommand (platform.string mode) (platform.string path)) ∧
        CheckCommand P (platform.string path) (platform.string mode) := by
  have command : (chmodDirCommand (platform.string mode) (platform.string path)).line ≠ [] :=
    Command.printf_line_ne_nil rfl (by decide) (by decide)
  have change := @allCommands_change P _ command (platform.string path) (platform.string mode)
  rw [chmodDir, if_neg named, ← change]
  constructor
  · rintro ⟨_, later⟩
    exact later true
  · intro own
    refine (allCommands_ask rfl _).mpr fun isDir => ?_
    cases isDir with
    | false => trivial
    | true => exact own

end Files

/-- The strings of a client in a command. -/
def Command.clients (command : Command) : List Bytes :=
  command.parts.filterMap fun part =>
    match part with
    | .client bytes => some bytes
    | _ => none

section Processes

variable {platform : Platform} {processname : String16}

/-- The command of `getProcessId`. -/
theorem allCommands_getProcessId :
    AllCommands P (getProcessId platform processname) ↔ P (pidofCommand platform processname) := by
  have named : (pidofCommand platform processname).line ≠ [] :=
    Command.printf_line_ne_nil rfl (by decide) (by decide)
  rw [getProcessId, allCommands_executeCmd named]
  refine and_iff_left fun answer => ?_
  split <;> trivial

/-- The command of `isProcessRunning`. -/
theorem allCommands_isProcessRunning :
    AllCommands P (isProcessRunning platform processname) ↔
      P (pidofCommand platform processname) := by
  have named : (pidofCommand platform processname).line ≠ [] :=
    Command.printf_line_ne_nil rfl (by decide) (by decide)
  rw [isProcessRunning, allCommands_executeCmd named]
  exact and_iff_left fun answer => trivial

/-- The commands of `killByProcessName`, besides the one that kills. -/
theorem allCommands_killByProcessName (own : ∀ command : Command, command.clients = [] → P command) :
    AllCommands P (killByProcessName platform processname) ↔
      P (pidofCommand platform processname) := by
  refine Iff.trans (allCommands_bind_of_quiet fun pids => ?_) allCommands_getProcessId
  split
  · trivial
  · have command : (Command.printf size1KHalf "kill -9 %s" [.value (platform.string pids)]).line ≠ [] :=
      Command.printf_line_ne_nil rfl (by decide) (by decide)
    exact (allCommands_mySystem command _).mpr ⟨own _ rfl, fun status => trivial⟩

end Processes

section Transfers

variable {platform : Platform} (own : ∀ command : Command, command.clients = [] → P command)

include own

/-- The measurement runs commands of the program only. -/
theorem allCommands_measureBandwidth (t_start : Int) :
    AllCommands P (measureBandwidth platform t_start) := by
  have size : sizeCommand.line ≠ [] := Command.printf_line_ne_nil rfl (by decide) (by decide)
  have remove : removeCommand.line ≠ [] := Command.printf_line_ne_nil rfl (by decide) (by decide)
  refine (allCommands_ask rfl _).mpr fun t_end => ?_
  refine (allCommands_executeCmd size _ _).mpr ⟨own _ rfl, fun answer => ?_⟩
  split
  · trivial
  · have scanned : AllCommands P (scanSize (cstr (filled size1K answer))) := by
      unfold scanSize
      split
      · trivial
      · exact (allCommands_ask rfl _).mpr fun _ => trivial
    refine scanned.bind fun buf_size => ?_
    exact (allCommands_mySystem remove _).mpr ⟨own _ rfl, fun status => trivial⟩

/-- The commands of `checkBandwidth_block`, besides those of the program. -/
theorem allCommands_checkBandwidth {serverIp user code : String16} :
    AllCommands P (checkBandwidth_block platform serverIp user code) ↔
      (checkIpaddr platform (platform.string serverIp) = true →
        P (downloadCommand platform serverIp user code)) := by
  have download := downloadCommand_line_ne_nil platform serverIp user code
  rw [checkBandwidth_block, allCommands_withLock]
  cases checkIpaddr platform (platform.string serverIp) with
  | false => exact iff_of_true trivial (by simp)
  | true =>
    rw [if_neg (by simp), forall_prop_of_true rfl]
    refine (allCommands_ask rfl _).trans ?_
    constructor
    · exact fun later => ((allCommands_executeCmd download _ _).mp (later 0)).1
    · intro client t_start
      refine (allCommands_executeCmd download _ _).mpr ⟨client, fun answer => ?_⟩
      refine (allCommands_ask rfl _).mpr fun found => ?_
      cases found with
      | false => trivial
      | true => exact allCommands_measureBandwidth own t_start

/-- The command that names the archive. -/
def mvCommand (zipFilename : Bytes) : Command :=
  .printf size1K "mv /sdcard/localhost.tar.gz /sdcard/%s" [.client zipFilename]

omit own in
/-- A command, and more only where it did not fail. -/
theorem allCommands_unless_failed {cmd : Command} (command : cmd.line ≠ [])
    (next : Program os Bool) :
    (AllCommands P do
      let ret ← mySystem cmd
      if ret < 0 then pure false else next) ↔ P cmd ∧ AllCommands P next := by
  rw [allCommands_mySystem command]
  refine and_congr_right fun _ => ⟨fun later => later (.exited 0), fun rest status => ?_⟩
  split
  · trivial
  · exact rest

omit own in
/-- More where a path exists. -/
theorem allCommands_if_access (path : Bytes) (next : Program os Bool) :
    (AllCommands P do
      if ← perform (.access path) then next else pure false) ↔ AllCommands P next := by
  refine (allCommands_ask rfl _).trans ⟨fun later => later true, fun rest found => ?_⟩
  cases found with
  | false => trivial
  | true => exact rest

/-- The commands of `archiveLogs`, besides those of the program. -/
theorem allCommands_archiveLogs {zipFilename : String16} :
    AllCommands P (archiveLogs platform zipFilename) ↔
      P (mvCommand (platform.string zipFilename)) := by
  have tar : tarCommand.line ≠ [] := Command.printf_line_ne_nil rfl (by decide) (by decide)
  have move : (mvCommand (platform.string zipFilename)).line ≠ [] :=
    Command.printf_line_ne_nil rfl (by decide) (by decide)
  rw [archiveLogs, allCommands_if_access, allCommands_if_access, allCommands_unless_failed tar,
    and_iff_right (own _ rfl)]
  refine (allCommands_unless_failed move _).trans (and_iff_left ?_)
  exact (allCommands_ask rfl _).mpr fun _ => trivial

/-- The commands of `collectLogFiles_block`, besides those of the program. -/
theorem allCommands_collectLogFiles {zipFilename : String16}
    (chmod : AllCommands P (chmodDir platform (utf16 "/data/tombstones") (utf16 "766"))) :
    AllCommands P (collectLogFiles_block platform zipFilename) ↔
      (zipFilename ≠ utf16 "" → strstr (platform.string zipFilename) (ascii ".zip") = true →
        P (mvCommand (platform.string zipFilename))) := by
  have save : (Command.literal "save_systeminfo").line ≠ [] :=
    Command.line_ne_nil rfl (by decide)
  have mkdir : (Command.literal "mkdir /data/tombstones").line ≠ [] :=
    Command.line_ne_nil rfl (by decide)
  have archive := @allCommands_archiveLogs P platform own zipFilename
  rw [collectLogFiles_block]
  split
  · rename_i unnamed
    exact iff_of_true trivial fun named => absurd unnamed named
  · rename_i named
    rw [forall_prop_of_true named]
    cases strstr (platform.string zipFilename) (ascii ".zip") with
    | false => exact iff_of_true trivial (by simp)
    | true =>
      rw [if_neg (by simp), forall_prop_of_true rfl, allCommands_withLock, collectLogs,
        allCommands_unless_failed save, and_iff_right (own _ rfl), allCommands_if_access, ← archive]
      refine (allCommands_ask rfl _).trans ⟨fun later => later true, fun rest found => ?_⟩
      cases found with
      | true => exact rest
      | false =>
        refine (allCommands_unless_failed mkdir _).mpr ⟨own _ rfl, ?_⟩
        refine chmod.bind fun changed => ?_
        cases changed with
        | false => trivial
        | true => exact rest

end Transfers

end Rjcore
