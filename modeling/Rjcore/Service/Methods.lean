import Rjcore.Service.Dispatch

/-!
# What holds of every method

A property of programs that survives sequencing and holds of the building blocks of the
service holds of every method, and of every thread that serves calls one after another. The
traversal of the methods is done here once (`Discipline.invoke`); each use gives the
property of the blocks.
-/

namespace Rjcore

open Interaction CText

/-- Operations that take no handle, run no command and touch no signal. -/
def Op.Quiet : Op → Prop
  | .access _ | .opendir _ | .propertyGet _ | .time | .statfs _ | .sync | .lock _ | .unlock _
  | .uninitialized | .write _ _ => True
  | _ => False

/-- Operations that leave the signals alone and run no command for its effect. -/
def Op.Plain : Op → Prop
  | .signal _ | .system _ => False
  | _ => True

/-- A property of programs that the methods inherit from their building blocks. -/
structure Discipline (platform : Platform) (P : ∀ {α : Type}, Program os α → Prop) : Prop where
  /-- It holds of a finished program. -/
  done : ∀ {α : Type} (value : α), P (.done value)
  /-- It survives sequencing. -/
  bind : ∀ {α β : Type} {program : Program os α} {next : α → Program os β},
    P program → (∀ value, P (next value)) → P (program >>= next)
  /-- It holds of one quiet operation. -/
  quiet : ∀ op : Op, op.Quiet → P (perform op)
  /-- It holds of a command whose output is collected. -/
  executeCmd : ∀ cmd result size, P (executeCmd cmd result size)
  /-- It holds of a command that is run for its effect. -/
  mySystem : ∀ cmd, P (mySystem cmd)
  /-- It holds of the method that uses the vendor sector device. -/
  setDeviceResolution : ∀ xres yres refresh flag,
    P (RjcoreService.setDeviceResolution xres yres refresh flag)
  /-- It holds of the method that reads a configuration file. -/
  getSupportResolution : P (RjcoreService.getSupportResolution platform)

namespace Discipline

variable {platform : Platform} {P : ∀ {α : Type}, Program os α → Prop}

/-- A property of every plain operation on its own and of `mySystem` is one of every method. -/
theorem of_operations (done : ∀ {α : Type} (value : α), P (.done value))
    (bind : ∀ {α β : Type} {program : Program os α} {next : α → Program os β},
      P program → (∀ value, P (next value)) → P (program >>= next))
    (operation : ∀ op : Op, op.Plain → P (perform op))
    (mySystem : ∀ cmd, P (Rjcore.mySystem cmd)) :
    Discipline platform P where
  done := done
  bind := bind
  quiet op isQuiet := operation op (by cases op <;> trivial)
  mySystem := mySystem
  executeCmd cmd result size := by
    unfold Rjcore.executeCmd
    split
    · exact done _
    · refine bind (operation _ trivial) fun answer => ?_
      cases answer with
      | none => exact done _
      | some output => exact bind (operation _ trivial) fun _ => done _
  setDeviceResolution xres yres refresh flag := by
    unfold RjcoreService.setDeviceResolution
    split
    · exact done _
    split
    · exact done _
    split
    · exact done _
    split
    · exact done _
    refine bind (operation _ trivial) fun opened => ?_
    split
    · refine bind (operation _ trivial) fun data => bind (operation _ trivial) fun read => ?_
      cases read with
      | none => exact bind (operation _ trivial) fun _ => done _
      | some sysData =>
        refine bind (operation _ trivial) fun stored => ?_
        cases stored with
        | none => exact bind (operation _ trivial) fun _ => done _
        | some sysData =>
          refine bind (operation _ trivial) fun reread => ?_
          cases reread <;> exact bind (operation _ trivial) fun _ => done _
    · exact done _
  getSupportResolution := by
    refine bind (operation _ trivial) fun opened => ?_
    cases opened with
    | none => exact done _
    | some file =>
      have list : ∀ support indices res,
          P (RjcoreService.listResolutions support indices res) := by
        intro support indices
        induction indices with
        | nil => exact fun res => done _
        | cons i rest ih =>
          intro res
          unfold RjcoreService.listResolutions
          split
          · exact bind (bind (operation _ trivial) fun _ => done _) fun _ => ih _
          · exact ih _
      simp only
      split
      · exact bind (operation _ trivial) fun _ => done _
      · exact bind (list _ _ _) fun _ => bind (operation _ trivial) fun _ => done _

/-- It holds under a lock. -/
theorem withLock (rules : Discipline platform P) {α : Type} (mutex : Mutex)
    {body : Program os α} (holds : P body) : P (withLock mutex body) :=
  rules.bind (rules.quiet _ trivial) fun _ =>
    rules.bind holds fun _ => rules.bind (rules.quiet _ trivial) fun _ => rules.done _

/-- It holds of both branches, so of the choice. -/
theorem choice {α : Type} {condition : Prop} [Decidable condition] {left right : Program os α}
    (first : P left) (second : P right) : P (if condition then left else right) := by
  split
  · exact first
  · exact second

/-- It holds of an append to a buffer. -/
theorem strcat (rules : Discipline platform P) (capacity : Nat) (res sub : Bytes) :
    P (strcat capacity res sub) :=
  rules.bind (rules.quiet _ trivial) fun _ => rules.done _

/-- It holds of the check of a file mode. -/
theorem checkFileMode (rules : Discipline platform P) (path mode : Bytes) (modeLen : Nat) :
    P (checkFileMode path mode modeLen) :=
  choice (rules.bind (rules.executeCmd _ _ _) fun _ => rules.done _)
    (choice (rules.bind (rules.executeCmd _ _ _) fun _ => rules.done _) (rules.done _))

/-- It holds of a report of what a command prints. -/
theorem reportText (rules : Discipline platform P) (cmd : Command) :
    P (RjcoreService.reportText platform cmd) :=
  rules.bind (rules.executeCmd _ _ _) fun _ => choice (rules.done _) (rules.done _)

/-- It holds of a command whose status is dropped. -/
theorem ignored (rules : Discipline platform P) (cmd : Command) :
    P (do let _ ← Rjcore.mySystem cmd; pure ()) :=
  rules.bind (rules.mySystem _) fun _ => rules.done _

/-- It holds of `chmodDir`. -/
theorem chmodDir (rules : Discipline platform P) (path mode : String16) :
    P (RjcoreService.chmodDir platform path mode) :=
  choice (rules.done _) (rules.bind (rules.quiet _ trivial) fun _ =>
    choice (rules.bind (rules.mySystem _) fun _ =>
      choice (rules.done _) (rules.checkFileMode _ _ _)) (rules.done _))

/-- It holds of `collectLogFiles_block`. -/
theorem collectLogFiles_block (rules : Discipline platform P) (zipFilename : String16) :
    P (RjcoreService.collectLogFiles_block platform zipFilename) := by
  have archive : P (RjcoreService.archiveLogs platform zipFilename) :=
    rules.bind (rules.quiet _ trivial) fun _ => choice
      (rules.bind (rules.quiet _ trivial) fun _ => choice
        (rules.bind (rules.mySystem _) fun _ => choice (rules.done _)
          (rules.bind (rules.mySystem _) fun _ => choice (rules.done _)
            (rules.bind (rules.quiet _ trivial) fun _ => rules.done _)))
        (rules.done _))
      (rules.done _)
  refine choice (rules.done _) (choice (rules.done _) (rules.withLock _ ?_))
  refine rules.bind (rules.mySystem _) fun _ => choice (rules.done _) ?_
  refine rules.bind (rules.quiet _ trivial) fun _ => choice ?_ (rules.done _)
  refine rules.bind (rules.quiet _ trivial) fun _ => choice archive ?_
  refine rules.bind (rules.mySystem _) fun _ => choice (rules.done _) ?_
  exact rules.bind (rules.chmodDir _ _) fun _ => choice archive (rules.done _)

/-- It holds of `getProcessId`. -/
theorem getProcessId (rules : Discipline platform P) (processname : String16) :
    P (RjcoreService.getProcessId platform processname) :=
  rules.bind (rules.executeCmd _ _ _) fun _ => choice (rules.done _) (rules.done _)

/-- It holds of `getNetcardState`. -/
theorem getNetcardState (rules : Discipline platform P) : P RjcoreService.getNetcardState :=
  rules.bind (rules.executeCmd _ _ _) fun _ => rules.done _

/-- It holds of `startAvahi`. -/
theorem startAvahi (rules : Discipline platform P) : P (RjcoreService.startAvahi platform) := by
  have running : P (RjcoreService.avahiRunning platform) :=
    rules.bind rules.getNetcardState fun _ => choice
      (rules.bind (rules.getProcessId _) fun _ => rules.done _) (rules.done _)
  have killed : P (RjcoreService.killAvahi platform) :=
    rules.bind running fun _ => choice (rules.mySystem _) (rules.done _)
  have launch : P (RjcoreService.launchAvahi platform) :=
    rules.bind (rules.quiet _ trivial) fun _ => choice
      (rules.bind killed fun _ => choice (rules.done _) (rules.ignored _)) (rules.done _)
  have unconfigured : P RjcoreService.avahiUnconfigured :=
    rules.bind (rules.quiet _ trivial) fun _ => choice (rules.done _) (rules.quiet _ trivial)
  have configured : P RjcoreService.configureAvahi :=
    rules.bind unconfigured fun _ => choice (rules.mySystem _) (rules.done _)
  exact rules.bind configured fun _ => choice (rules.done _) launch

/-- It holds of `checkBandwidth_block`. -/
theorem checkBandwidth_block (rules : Discipline platform P) (serverIp user code : String16) :
    P (RjcoreService.checkBandwidth_block platform serverIp user code) := by
  have scan : ∀ text, P (RjcoreService.scanSize text) := by
    intro text
    unfold RjcoreService.scanSize
    split
    · exact rules.done _
    · exact rules.bind (rules.quiet _ trivial) fun _ => rules.done _
  have measure : ∀ t_start, P (RjcoreService.measureBandwidth platform t_start) := fun t_start =>
    rules.bind (rules.quiet _ trivial) fun _ => rules.bind (rules.executeCmd _ _ _) fun _ =>
      choice (rules.done _) (rules.bind (scan _) fun _ =>
        rules.bind (rules.mySystem _) fun _ => rules.done _)
  refine rules.withLock _ (choice (rules.done _) (rules.bind (rules.quiet _ trivial) fun _ => ?_))
  refine rules.bind (rules.executeCmd _ _ _) fun _ => rules.bind (rules.quiet _ trivial) fun _ => ?_
  exact choice (measure _) (rules.done _)

/-- It holds of a report of a property. -/
theorem getProperty (rules : Discipline platform P) (key : String) :
    P (RjcoreService.getProperty platform key) :=
  rules.bind (rules.quiet _ trivial) fun _ => choice (rules.done _) (rules.done _)

/-- It holds of `getCpuInfo`. -/
theorem getCpuInfo (rules : Discipline platform P) : P (RjcoreService.getCpuInfo platform) := by
  refine rules.bind (rules.executeCmd _ _ _) fun _ => choice (rules.done _) ?_
  refine rules.bind (rules.quiet _ trivial) fun _ => choice (rules.done _) ?_
  exact rules.bind (rules.strcat _ _ _) fun _ => rules.bind (rules.strcat _ _ _) fun _ =>
    rules.done _

/-- It holds of `getStorageInfo`. -/
theorem getStorageInfo (rules : Discipline platform P) :
    P (RjcoreService.getStorageInfo platform) := by
  refine rules.bind (rules.bind (rules.quiet _ trivial) fun answer => ?_) fun _ => rules.done _
  cases answer with
  | none => exact rules.done _
  | some sizes =>
    exact choice (rules.done _) (choice (choice (rules.done _) (rules.done _)) (rules.done _))

/-- It holds of `getOtaResult`. -/
theorem getOtaResult (rules : Discipline platform P) : P RjcoreService.getOtaResult := by
  refine rules.bind (rules.executeCmd _ _ _) fun _ => choice (rules.done _) ?_
  refine rules.bind ?_ fun _ => rules.done _
  unfold RjcoreService.scanUpdateFlag
  split
  · exact rules.done _
  · exact rules.bind (rules.quiet _ trivial) fun _ => rules.done _

/-- It holds of every method. -/
theorem invoke (rules : Discipline platform P) (self : RjcoreService) (call : Call) :
    P (self.invoke platform call) := by
  cases call with
  | getCpuInfo => exact rules.getCpuInfo
  | getAndroidVersion => exact rules.getProperty _
  | getSystemVersion => exact rules.getProperty _
  | getSerialNumber => exact choice (rules.done _) (rules.done _)
  | getProductType => exact choice (rules.done _) (rules.done _)
  | getHardwareVesion => exact choice (rules.done _) (rules.done _)
  | getProductId => exact choice (rules.done _) (rules.done _)
  | getProductName =>
    exact rules.bind (rules.quiet _ trivial) fun _ => choice (rules.done _) (rules.done _)
  | getBaseboardInfo => exact rules.getProperty _
  | getMemoryInfo =>
    exact rules.bind (rules.executeCmd _ _ _) fun _ => choice (rules.done _) (rules.done _)
  | getStorageInfo => exact rules.getStorageInfo
  | setPowerState powerState =>
    exact choice (rules.done _) (choice (rules.done _) (rules.ignored _))
  | getPowerState =>
    exact choice (rules.done _) (rules.bind (rules.executeCmd _ _ _) fun _ => rules.done _)
  | collectLogFiles_block zipFilename => exact rules.collectLogFiles_block zipFilename
  | chmodFile path mode =>
    refine choice (rules.done _) (rules.bind (rules.quiet _ trivial) fun _ => choice ?_ (rules.done _))
    refine rules.bind (rules.quiet _ trivial) fun _ => choice (rules.done _) ?_
    exact rules.bind (rules.mySystem _) fun _ => choice (rules.done _) (rules.checkFileMode _ _ _)
  | chmodDir path mode => exact rules.chmodDir path mode
  | rmFile path =>
    refine choice (rules.done _) (rules.bind (rules.quiet _ trivial) fun _ => choice ?_ (rules.done _))
    refine rules.bind (rules.quiet _ trivial) fun _ => choice (rules.done _) ?_
    exact rules.bind (rules.mySystem _) fun _ => choice (rules.done _) (rules.done _)
  | reboot => exact rules.ignored _
  | shutdown => exact rules.ignored _
  | getLedStatus color =>
    exact choice (rules.done _) (choice (rules.done _)
      (rules.bind (rules.executeCmd _ _ _) fun _ => rules.done _))
  | setLedStatus color state =>
    exact choice (rules.done _) (choice (rules.done _) (choice (rules.done _) (rules.ignored _)))
  | setDeviceResolution xres yres refresh flag =>
    exact rules.setDeviceResolution xres yres refresh flag
  | getCurrentResolution_block => exact rules.reportText _
  | getSupportResolution => exact rules.getSupportResolution
  | getPropertyValue key =>
    exact choice (rules.done _) (rules.bind (rules.quiet _ trivial) fun _ => rules.done _)
  | getNetcardState => exact rules.getNetcardState
  | getNetcardCurSpeed => exact rules.reportText _
  | getNetcardMaxSpeed =>
    exact rules.bind (rules.executeCmd _ _ _) fun _ => choice (rules.done _)
      (choice (rules.done _) (choice (rules.done _) (rules.done _)))
  | startAvahi => exact rules.startAvahi
  | stopAvahi =>
    exact rules.bind (rules.quiet _ trivial) fun _ => choice (rules.ignored _) (rules.done _)
  | checkIpConflict_block ip =>
    exact choice (rules.done _) (rules.bind rules.getNetcardState fun _ =>
      choice (rules.reportText _) (rules.done _))
  | ping_block ip count timeout deadline =>
    exact choice (rules.done _) (choice (rules.done _) (rules.reportText _))
  | checkBandwidth_block serverIp user code => exact rules.checkBandwidth_block serverIp user code
  | getOtaResult => exact rules.getOtaResult
  | isProcessRunning processname =>
    exact rules.bind (rules.executeCmd _ _ _) fun _ => rules.done _
  | getProcessId processname => exact rules.getProcessId processname
  | killByProcessName processname =>
    exact rules.bind (rules.getProcessId processname) fun _ =>
      choice (rules.done _) (rules.ignored _)

/-- It holds of a thread that serves calls. -/
theorem serve (rules : Discipline platform P) (self : RjcoreService) (calls : List Call) :
    P (self.serve platform calls) := by
  induction calls with
  | nil => exact rules.done _
  | cons call rest ih => exact rules.bind (rules.invoke self call) fun _ => ih

end Discipline

end Rjcore
