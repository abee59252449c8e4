import Rjcore.Interaction.Sequence
import Rjcore.Service.Dispatch

/-!
# Reported success

`rmFile`, `chmodDir` and `collectLogFiles_block` report success exactly when their arguments
pass their checks and the system refuses nothing (`Task.run_iff`). A command that ends with
another exit code than zero, or by a signal, is not a refusal: only the value -1 of
`system()` is negative.
-/

namespace Rjcore

open Interaction CText RjcoreService

/-- The methods that report whether their commands succeeded. -/
inductive Task
  | rmFile (path : String16)
  | chmodDir (path mode : String16)
  | collectLogFiles_block (zipFilename : String16)

namespace Task

variable (platform : Platform)

/-- The method. -/
def run : Task → Program os Bool
  | .rmFile path => RjcoreService.rmFile platform path
  | .chmodDir path mode => RjcoreService.chmodDir platform path mode
  | .collectLogFiles_block zipFilename => RjcoreService.collectLogFiles_block platform zipFilename

/-- Arguments that the method never reports success for. -/
def Unsuitable : Task → Prop
  | .rmFile path => path = utf16 ""
  | .chmodDir path mode => mode = utf16 "" ∨ path = utf16 "" ∨
    (platform.string mode).length ≠ 3 ∧ (platform.string mode).length ≠ 4
  | .collectLogFiles_block zipFilename => zipFilename = utf16 "" ∨
    strstr (platform.string zipFilename) (ascii ".zip") = false

end Task

/-- The answers with which the system keeps a directory from getting a mode: a command or
the directory cannot be opened, a file is missing, or the mode found is another one. -/
def RefusesMode (mode : Bytes) : Event os → Prop
  | ⟨.system _, status⟩ => status = .failed
  | ⟨.popen _, answer⟩ => strncmpEq mode.length (report size1KHalf answer) mode = false
  | ⟨.access path, found⟩ => found = false ∧ path ≠ tombstones
  | ⟨.opendir _, opened⟩ => opened = false
  | _ => False

/-- The answers with which the system keeps a file from being removed. -/
def RefusesRemoval : Event os → Prop
  | ⟨.system _, status⟩ => status = .failed
  | ⟨.access _, found⟩ => found = false
  | ⟨.opendir _, opened⟩ => opened = true
  | _ => False

/-- The answers after which the method reports failure. -/
def Task.Refuses (platform : Platform) : Task → Event os → Prop
  | .rmFile _ => RefusesRemoval
  | .chmodDir _ mode => RefusesMode (platform.string mode)
  | .collectLogFiles_block _ => RefusesMode (ascii "766")

/-- Every command run through `mySystem` ended normally with exit code zero. -/
def Succeeded (trace : List (Event os)) : Prop :=
  ∀ command status, ⟨.system command, status⟩ ∈ trace → status = .exited 0

/-! ## Checks -/

/-- A program that succeeds exactly when nothing is refused. -/
def Strict (refuses : Event os → Prop) (program : Program os Bool) : Prop :=
  program.Ensures fun trace result => result = true ↔ ∀ event ∈ trace, ¬refuses event

/-- A step that passes exactly when nothing is refused. -/
def Checks {α : Type} (refuses : Event os → Prop) (program : Program os α) (passes : α → Prop) :
    Prop :=
  program.Ensures fun trace value => passes value ↔ ∀ event ∈ trace, ¬refuses event

/-- A check in front of a strict program, whose failure is reported. -/
theorem Checks.guard {α : Type} {refuses : Event os → Prop} {first : Program os α}
    {passes : α → Prop} {next : α → Program os Bool} (checks : Checks refuses first passes)
    (onward : ∀ value, passes value → Strict refuses (next value))
    (refused : ∀ value, ¬passes value → next value = pure false) :
    Strict refuses (first >>= next) := by
  refine Program.Ensures.bind checks fun trace value passed => ?_
  by_cases ok : passes value
  · refine (onward value ok).mono fun rest result strict => ?_
    rw [strict, List.forall_mem_append]
    exact (and_iff_right (passed.mp ok)).symm
  · rw [refused value ok]
    refine iff_of_false Bool.false_ne_true fun none_refused => ok (passed.mpr ?_)
    rwa [List.append_nil] at none_refused

/-- One operation is a check of its answer. -/
theorem checks_perform {refuses : Event os → Prop} {op : Op} {passes : op.Answer → Prop}
    (decides : ∀ answer, passes answer ↔ ¬refuses ⟨op, answer⟩) :
    Checks refuses (perform op) passes := by
  intro answer
  change passes answer ↔ ∀ event ∈ [⟨op, answer⟩], ¬refuses event
  rw [List.forall_mem_singleton, decides]

/-- Only a command that could not be run has a negative value. -/
theorem WaitStatus.value_neg_iff (status : WaitStatus) : status.value < 0 ↔ status = .failed := by
  cases status with
  | exited code =>
    have positive : ¬((256 : Int) * code.toNat < 0) := by omega
    exact iff_of_false positive (by simp)
  | signaled signal core =>
    refine iff_of_false ?_ (by simp)
    simp only [WaitStatus.value]
    split <;> omega
  | failed => exact iff_of_true (by decide) rfl

/-- A command is a check that it could be run. -/
theorem checks_mySystem {refuses : Event os → Prop} {cmd : Command} (command : cmd.line ≠ [])
    (signals : ∀ disposition answer, ¬refuses ⟨.signal disposition, answer⟩)
    (statuses : ∀ status, refuses ⟨.system cmd, status⟩ ↔ status = .failed) :
    Checks refuses (mySystem cmd) fun ret => ¬ret < 0 := by
  refine (mySystem_ensures command).mono ?_
  rintro _ _ ⟨saved, status, restored, rfl, rfl⟩
  change ¬status.value < 0 ↔ _
  rw [WaitStatus.value_neg_iff, ← statuses status]
  simp [signals]

/-- A comparison of the mode is strict. -/
theorem strict_compare {mode : Bytes} {cmd : Command} {modeLen : Nat} (length : mode.length = modeLen)
    (command : cmd.line ≠ []) : Strict (RefusesMode mode) (do
      let checkMode ← executeCmd cmd (zeros size1KHalf) size1KHalf
      pure (strncmpEq modeLen (cstr checkMode) mode)) := by
  have room : 0 < size1KHalf := by decide
  refine Program.Ensures.bind (executeCmd_report room command) ?_
  rintro _ buffer ⟨_, answer, rfl, text⟩
  rw [text, ← length]
  cases answer with
  | none =>
    change _ = true ↔ ∀ event ∈ ([⟨.popen cmd, none⟩] : List (Event os)), ¬RefusesMode mode event
    simp [RefusesMode]
  | some output =>
    change _ = true ↔ ∀ event ∈ ([⟨.popen cmd, some output⟩, ⟨.pclose, ()⟩] : List (Event os)),
      ¬RefusesMode mode event
    simp [RefusesMode]

/-- The comparison of a mode of three or four digits is strict. -/
theorem strict_checkFileMode (path : Bytes) {mode : Bytes} (digits : mode.length = 3 ∨ mode.length = 4) :
    Strict (RefusesMode mode) (checkFileMode path mode mode.length) := by
  rcases digits with three | four
  · rw [checkFileMode, if_pos three]
    exact strict_compare three (Command.printf_line_ne_nil rfl (by decide) (by decide))
  · rw [checkFileMode, if_neg (by omega), if_pos four]
    exact strict_compare four (Command.printf_line_ne_nil rfl (by decide) (by decide))

/-! ## The methods -/

section Methods

variable {platform : Platform}

/-- A command without a client's text runs as a check of a directory's mode. -/
theorem checks_modeCommand {mode : Bytes} {cmd : Command} (command : cmd.line ≠ []) :
    Checks (RefusesMode mode) (mySystem cmd) fun ret => ¬ret < 0 :=
  checks_mySystem command (fun _ _ => not_false) fun _ => Iff.rfl

/-- With suitable arguments `chmodDir` is strict. -/
theorem strict_chmodDir {path mode : String16} (named : ¬(mode = utf16 "" ∨ path = utf16 ""))
    (digits : (platform.string mode).length = 3 ∨ (platform.string mode).length = 4) :
    Strict (RefusesMode (platform.string mode)) (RjcoreService.chmodDir platform path mode) := by
  rw [RjcoreService.chmodDir, if_neg named]
  have opened : Checks (RefusesMode (platform.string mode))
      (perform (.opendir (platform.string path))) (· = true) :=
    checks_perform fun answer => (Bool.not_eq_false answer).symm.to_iff
  refine opened.guard (fun found yes => ?_) fun found no => if_neg no
  rw [if_pos yes]
  have changed := @checks_modeCommand (platform.string mode) (.printf size1K "chmod -R %s %s"
    [.client (platform.string mode), .client (platform.string path)])
    (Command.printf_line_ne_nil rfl (by decide) (by decide))
  refine changed.guard (fun ret ran => ?_) fun ret failed => if_pos (not_not.mp failed)
  rw [if_neg ran]
  exact strict_checkFileMode _ digits

/-- With a mode of another length `chmodDir` fails. -/
theorem chmodDir_otherMode {path mode : String16}
    (other : ¬((platform.string mode).length = 3 ∨ (platform.string mode).length = 4)) :
    (RjcoreService.chmodDir platform path mode).Ensures fun _ result => result = false := by
  have unchecked : ∀ file, checkFileMode file (platform.string mode) (platform.string mode).length =
      pure false := by
    intro file
    rw [checkFileMode, if_neg (by omega), if_neg (by omega)]
  rw [RjcoreService.chmodDir]
  split
  · rfl
  · intro opened
    cases opened with
    | false => rfl
    | true =>
      change Program.Ensures (mySystem _ >>= _) _
      refine Program.Ensures.bind (@Program.Ensures.of_forall _ _ _ (fun _ _ => True)
        fun _ _ => trivial) fun _ ret _ => ?_
      rw [unchecked]
      split
      · rfl
      · rfl

/-- A removal is strict. -/
theorem strict_rmFile {path : String16} (named : path ≠ utf16 "") :
    Strict RefusesRemoval (RjcoreService.rmFile platform path) := by
  rw [RjcoreService.rmFile, if_neg named]
  have found : Checks RefusesRemoval (perform (.access (platform.string path))) (· = true) :=
    checks_perform fun answer => (Bool.not_eq_false answer).symm.to_iff
  refine found.guard (fun answer yes => ?_) fun answer no => if_neg no
  rw [if_pos yes]
  have opened : Checks RefusesRemoval (perform (.opendir (platform.string path))) (· = false) :=
    checks_perform fun answer => (Bool.not_eq_true answer).symm.to_iff
  refine opened.guard (fun answer no => ?_) fun answer yes => if_pos ((Bool.not_eq_false answer).mp yes)
  rw [if_neg ((Bool.not_eq_true answer).mpr no)]
  have removed : Checks RefusesRemoval (mySystem (.printf size1K "rm -f %s"
      [.client (platform.string path)])) fun ret => ¬ret < 0 :=
    checks_mySystem (Command.printf_line_ne_nil rfl (by decide) (by decide)) (fun _ _ => not_false)
      fun _ => Iff.rfl
  refine removed.guard (fun ret ran => ?_) fun ret failed => if_pos (not_not.mp failed)
  rw [if_neg ran]
  exact iff_of_true rfl fun _ member => absurd member List.not_mem_nil

/-- A lock around a strict program. -/
theorem Strict.withLock {mode : Bytes} {body : Program os Bool} (strict : Strict (RefusesMode mode) body)
    (mutex : Mutex) : Strict (RefusesMode mode) (withLock mutex body) := by
  intro _
  change Program.Ensures (body >>= _) _
  refine Program.Ensures.bind strict fun trace result same _ => ?_
  change result = true ↔ ∀ event ∈ (⟨.lock mutex, ()⟩ : Event os) :: (trace ++ [⟨.unlock mutex, ()⟩]),
    ¬RefusesMode mode event
  rw [same]
  simp only [List.forall_mem_cons, List.forall_mem_append, List.not_mem_nil]
  simp [RefusesMode]

/-- The mode of the directory of the tombstones. -/
theorem string_mode (platform : Platform) : platform.string (utf16 "766") = ascii "766" := by
  have narrow := platform.string8_ascii (utf16 "766") (List.forall_iff_forall_mem.mp (by decide))
  rw [Platform.string, narrow]
  decide

/-- The existence of any file but the tombstones is a check. -/
theorem checks_access {mode path : Bytes} (other : path ≠ tombstones) :
    Checks (RefusesMode mode) (perform (.access path)) (· = true) :=
  checks_perform fun answer => by
    simp [RefusesMode, other]

/-- The archive is strict. -/
theorem strict_archiveLogs (mode : Bytes) (zipFilename : String16) :
    Strict (RefusesMode mode) (archiveLogs platform zipFilename) := by
  refine (checks_access (by decide)).guard (fun found yes => ?_) fun found no => if_neg no
  rw [if_pos yes]
  refine (checks_access (by decide)).guard (fun found yes => ?_) fun found no => if_neg no
  rw [if_pos yes]
  have archived := @checks_modeCommand mode tarCommand (Command.line_ne_nil rfl (by decide))
  refine archived.guard (fun ret ran => ?_) fun ret failed => if_pos (not_not.mp failed)
  rw [if_neg ran]
  have moved := @checks_modeCommand mode (.printf size1K "mv /sdcard/localhost.tar.gz /sdcard/%s"
    [.client (platform.string zipFilename)])
    (Command.printf_line_ne_nil rfl (by decide) (by decide))
  refine moved.guard (fun ret ran => ?_) fun ret failed => if_pos (not_not.mp failed)
  rw [if_neg ran]
  intro _
  exact iff_of_true rfl (List.forall_mem_singleton.mpr not_false)

/-- The collection is strict. -/
theorem strict_collectLogs (zipFilename : String16) :
    Strict (RefusesMode (ascii "766")) (collectLogs platform zipFilename) := by
  have saved := @checks_modeCommand (ascii "766") (.literal "save_systeminfo")
    (Command.line_ne_nil rfl (by decide))
  refine saved.guard (fun ret ran => ?_) fun ret failed => if_pos (not_not.mp failed)
  rw [if_neg ran]
  refine (checks_access (by decide)).guard (fun found yes => ?_) fun found no => if_neg no
  rw [if_pos yes]
  have either : Checks (RefusesMode (ascii "766")) (perform (.access tombstones)) fun _ => True :=
    checks_perform fun answer => by simp [RefusesMode]
  refine either.guard (fun found _ => ?_) fun _ no => absurd trivial no
  split
  · exact strict_archiveLogs _ _
  · have made := @checks_modeCommand (ascii "766") (.literal "mkdir /data/tombstones")
      (Command.line_ne_nil rfl (by decide))
    refine made.guard (fun ret ran => ?_) fun ret failed => if_pos (not_not.mp failed)
    rw [if_neg ran]
    have changed : Checks (RefusesMode (platform.string (utf16 "766")))
        (RjcoreService.chmodDir platform (utf16 "/data/tombstones") (utf16 "766")) (· = true) :=
      strict_chmodDir (by decide) (.inl (by rw [string_mode]; rfl))
    rw [string_mode] at changed
    refine changed.guard (fun found yes => ?_) fun found no => if_neg no
    rw [if_pos yes]
    exact strict_archiveLogs _ _

end Methods

/-- The methods report success exactly for suitable arguments and when nothing is refused. -/
theorem Task.run_iff (platform : Platform) (task : Task) :
    (task.run platform).Ensures fun trace result =>
      result = true ↔ ¬task.Unsuitable platform ∧ ∀ event ∈ trace, ¬task.Refuses platform event := by
  cases task with
  | rmFile path =>
    by_cases named : path = utf16 ""
    · rw [run, RjcoreService.rmFile, if_pos named]
      exact iff_of_false Bool.false_ne_true fun suitable => suitable.1 named
    · exact (strict_rmFile named).mono fun _ _ strict => strict.trans (and_iff_right named).symm
  | chmodDir path mode =>
    by_cases named : mode = utf16 "" ∨ path = utf16 ""
    · rw [run, RjcoreService.chmodDir, if_pos named]
      refine iff_of_false Bool.false_ne_true fun suitable => suitable.1 ?_
      exact named.imp id .inl
    · by_cases digits : (platform.string mode).length = 3 ∨ (platform.string mode).length = 4
      · refine (strict_chmodDir named digits).mono fun _ _ strict => strict.trans ?_
        refine (and_iff_right ?_).symm
        rintro (blank | blank | other)
        · exact named (.inl blank)
        · exact named (.inr blank)
        · omega
      · refine (chmodDir_otherMode digits).mono fun trace result failed => ?_
        rw [failed]
        refine iff_of_false Bool.false_ne_true fun suitable => suitable.1 (.inr (.inr ?_))
        omega
  | collectLogFiles_block zipFilename =>
    rw [run, RjcoreService.collectLogFiles_block]
    by_cases named : zipFilename = utf16 ""
    · rw [if_pos named]
      exact iff_of_false Bool.false_ne_true fun suitable => suitable.1 (.inl named)
    · rw [if_neg named]
      split
      · rename_i other
        exact iff_of_false Bool.false_ne_true fun suitable => suitable.1 (.inr other)
      · rename_i archive
        refine ((strict_collectLogs zipFilename).withLock _).mono fun _ _ strict => ?_
        refine strict.trans (and_iff_right ?_).symm
        rintro (blank | other)
        · exact named blank
        · exact archive other

/-- In every run a reported success is a real one exactly when every command succeeded, the
arguments are unsuitable or the system refused something. -/
theorem reported_success_iff (platform : Platform) (task : Task) :
    (task.run platform).Ensures fun trace result =>
      (result = true → Succeeded trace) ↔
        Succeeded trace ∨ task.Unsuitable platform ∨ ∃ event ∈ trace, task.Refuses platform event := by
  refine (task.run_iff platform).mono fun trace result reported => ?_
  rw [reported]
  constructor
  · intro real
    by_cases blocked : task.Unsuitable platform ∨ ∃ event ∈ trace, task.Refuses platform event
    · exact .inr blocked
    · rw [not_or] at blocked
      exact .inl (real ⟨blocked.1, fun event member refused => blocked.2 ⟨event, member, refused⟩⟩)
  · rintro (succeeded | unsuitable | ⟨event, member, refused⟩) accepted
    · exact succeeded
    · exact absurd unsuitable accepted.1
    · exact absurd refused (accepted.2 event member)

/-- Every command ends with exit code one. -/
def exitsWithOne (_ : Unit) : (op : Op) → op.Answer × Unit
  | .system _ => (.exited 1, ())
  | op => (op.uneventful, ())

/-- A file whose removal ends with exit code one is reported as removed. -/
theorem not_reported_success :
    ¬∀ (platform : Platform) (task : Task), (task.run platform).Ensures fun trace result =>
      result = true → Succeeded trace := by
  intro real
  obtain ⟨valid, program, _⟩ := @Execution.respond_valid _ _ _ (fun _ _ _ _ => True) exitsWithOne
    (fun _ _ => trivial) () (Task.run (.plain false) (.rmFile (utf16 "/a")))
  have run := valid.runs
  rw [program] at run
  have succeeded := Program.ensures_iff.mp (real _ _) _ _ run rfl
  have status := succeeded (.printf size1K "rm -f %s" [.client (ascii "/a")]) (.exited 1)
    (.tail _ (.tail _ (.tail _ (.head _))))
  exact absurd status (by decide)

end Rjcore
