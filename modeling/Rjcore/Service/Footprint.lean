import Rjcore.Interaction.Footprint
import Rjcore.Service.Dispatch

/-!
# What a method may use

The operations of the system are grouped by what they touch, and every call of the interface
has a list of the groups its method may use. No arguments and no answers of the system lead a
method beyond its list. Two methods take a lock, and what they do under it takes no other.
-/

namespace Rjcore

open Interaction CText

/-- What an operation touches. -/
inductive Facility
  | paths
  | directories
  | files
  /-- Commands that are run for their output. -/
  | pipes
  /-- Commands that are run for their effect, and the signals around them. -/
  | commands
  | properties
  | clock
  | storage
  /-- The vendor sector. -/
  | device
  | disks
  | locks
  /-- Writes of the service into its own buffers. -/
  | buffers
  deriving DecidableEq

/-- The group of an operation. -/
def Op.facility : Op → Facility
  | .access _ => .paths
  | .opendir _ => .directories
  | .fopen _ _ | .fclose => .files
  | .popen _ | .pclose => .pipes
  | .signal _ | .system _ => .commands
  | .propertyGet _ => .properties
  | .time => .clock
  | .statfs _ => .storage
  | .open _ | .close | .ioctl _ _ | .uninitialized => .device
  | .sync => .disks
  | .lock _ | .unlock _ => .locks
  | .write _ _ => .buffers

/-- What the method of a call may use. -/
def Call.facilities : Call → List Facility
  | .getSerialNumber | .getProductType | .getHardwareVesion | .getProductId => []
  | .getAndroidVersion | .getSystemVersion | .getProductName | .getBaseboardInfo
  | .getPropertyValue _ => [.properties]
  | .getCpuInfo => [.pipes, .properties, .buffers]
  | .getStorageInfo => [.storage]
  | .getSupportResolution => [.files, .buffers]
  | .getOtaResult => [.pipes, .buffers]
  | .setPowerState _ | .reboot | .shutdown | .setLedStatus _ _ => [.commands]
  | .setDeviceResolution _ _ _ _ => [.device]
  | .rmFile _ => [.paths, .directories, .commands]
  | .chmodDir _ _ => [.directories, .commands, .pipes]
  | .chmodFile _ _ => [.paths, .directories, .commands, .pipes]
  | .collectLogFiles_block _ => [.locks, .paths, .directories, .commands, .pipes, .disks]
  | .checkBandwidth_block _ _ _ => [.locks, .paths, .commands, .pipes, .clock, .buffers]
  | .startAvahi => [.paths, .commands, .pipes]
  | .stopAvahi => [.paths, .commands]
  | .killByProcessName _ => [.commands, .pipes]
  | _ => [.pipes]

/-- Whether a list has a facility is computed. -/
theorem listed {facility : Facility} {facilities : List Facility}
    (found : facilities.elem facility = true) : facility ∈ facilities :=
  List.elem_iff.mp found

/-- Whether a list lacks one is, too. -/
theorem unlisted {facility : Facility} {facilities : List Facility}
    (missing : facilities.elem facility = false) : facility ∉ facilities := fun member =>
  absurd (missing.symm.trans (List.elem_iff.mpr member)) Bool.false_ne_true

/-- A program stays within a list of facilities. -/
abbrev Uses (facilities : List Facility) {α : Type} (program : Program os α) : Prop :=
  program.Asks fun op : Op => op.facility ∈ facilities

namespace Uses

variable {facilities : List Facility} {platform : Platform}

/-- One operation. -/
theorem perform (op : Op) (listed : op.facility ∈ facilities) :
    Uses facilities (Rjcore.perform op) :=
  ⟨listed, fun _ => trivial⟩

/-- A longer list allows more. -/
theorem widen {α : Type} {program : Program os α} {wider : List Facility}
    (uses : Uses facilities program) (included : facilities ⊆ wider) : Uses wider program :=
  uses.mono fun _ listed => included listed

/-- A command that is run for its output. -/
theorem executeCmd (pipes : .pipes ∈ facilities) (cmd : Command) (result : Bytes) (size : Nat) :
    Uses facilities (executeCmd cmd result size) := by
  unfold Rjcore.executeCmd
  split
  · trivial
  · refine ⟨pipes, fun answer => ?_⟩
    cases answer with
    | none => trivial
    | some output => exact ⟨pipes, fun _ => trivial⟩

/-- A command that is run for its effect. -/
theorem mySystem (commands : .commands ∈ facilities) (cmd : Command) :
    Uses facilities (mySystem cmd) := by
  unfold Rjcore.mySystem
  split
  · trivial
  · exact ⟨commands, fun _ => ⟨commands, fun _ => ⟨commands, fun _ => trivial⟩⟩⟩

/-- A command whose status is dropped. -/
theorem ignored (commands : .commands ∈ facilities) (cmd : Command) :
    Uses facilities (do let _ ← Rjcore.mySystem cmd; pure ()) :=
  (mySystem commands cmd).bind fun _ => trivial

/-- A section under a lock. -/
theorem withLock {α : Type} (locks : .locks ∈ facilities) (mutex : Mutex) {body : Program os α}
    (uses : Uses facilities body) : Uses facilities (withLock mutex body) :=
  (perform (.lock mutex) locks).bind fun _ =>
    uses.bind fun _ => (perform (.unlock mutex) locks).bind fun _ => trivial

/-- The check of a file mode. -/
theorem checkFileMode (pipes : .pipes ∈ facilities) (path mode : Bytes) (modeLen : Nat) :
    Uses facilities (checkFileMode path mode modeLen) :=
  .ite ((executeCmd pipes _ _ _).bind fun _ => trivial)
    (.ite ((executeCmd pipes _ _ _).bind fun _ => trivial) trivial)

/-- A report of what a command prints. -/
theorem reportText (pipes : .pipes ∈ facilities) (cmd : Command) :
    Uses facilities (RjcoreService.reportText platform cmd) :=
  (executeCmd pipes _ _ _).bind fun _ => .ite trivial trivial

/-- A report of a property. -/
theorem getProperty (properties : .properties ∈ facilities) (key : String) :
    Uses facilities (RjcoreService.getProperty platform key) :=
  (perform (.propertyGet _) properties).bind fun _ => .ite trivial trivial

/-- The state of the network card. -/
theorem getNetcardState (pipes : .pipes ∈ facilities) :
    Uses facilities RjcoreService.getNetcardState :=
  (executeCmd pipes _ _ _).bind fun _ => trivial

/-- The processes of a name. -/
theorem getProcessId (pipes : .pipes ∈ facilities) (processname : String16) :
    Uses facilities (RjcoreService.getProcessId platform processname) :=
  (executeCmd pipes _ _ _).bind fun _ => .ite trivial trivial

/-- The change of a directory's mode. -/
theorem chmodDir (directories : .directories ∈ facilities) (commands : .commands ∈ facilities)
    (pipes : .pipes ∈ facilities) (path mode : String16) :
    Uses facilities (RjcoreService.chmodDir platform path mode) :=
  .ite trivial ((perform (.opendir _) directories).bind fun _ =>
    .ite ((mySystem commands _).bind fun _ => .ite trivial (checkFileMode pipes _ _ _)) trivial)

/-- The loop over the resolutions. -/
theorem listResolutions (buffers : .buffers ∈ facilities) (support : Int32) (indices : List Nat)
    (res : Bytes) : Uses facilities (RjcoreService.listResolutions support indices res) := by
  induction indices generalizing res with
  | nil => trivial
  | cons i rest ih =>
    refine .ite (Program.Asks.bind ?_ fun _ => ih _) (ih _)
    exact (perform (.write _ _) buffers).bind fun _ => trivial

end Uses

namespace RjcoreService

variable (platform : Platform)

/-- `collectLogFiles_block` takes no other lock under its own. -/
theorem collectLogs_uses (zipFilename : String16) :
    Uses [.paths, .directories, .commands, .pipes, .disks] (collectLogs platform zipFilename) := by
  have archive : Uses [.paths, .directories, .commands, .pipes, .disks]
      (archiveLogs platform zipFilename) := by
    refine (Uses.perform (.access _) (listed rfl)).bind fun _ => .ite ?_ trivial
    refine (Uses.perform (.access _) (listed rfl)).bind fun _ => .ite ?_ trivial
    refine (Uses.mySystem (listed rfl) _).bind fun _ => .ite trivial ?_
    refine (Uses.mySystem (listed rfl) _).bind fun _ => .ite trivial ?_
    exact (Uses.perform .sync (listed rfl)).bind fun _ => trivial
  refine (Uses.mySystem (listed rfl) _).bind fun _ => .ite trivial ?_
  refine (Uses.perform (.access _) (listed rfl)).bind fun _ => .ite ?_ trivial
  refine (Uses.perform (.access _) (listed rfl)).bind fun _ => .ite archive ?_
  refine (Uses.mySystem (listed rfl) _).bind fun _ => .ite trivial ?_
  have chmod := @Uses.chmodDir [.paths, .directories, .commands, .pipes, .disks] platform
    (listed rfl) (listed rfl) (listed rfl) (utf16 "/data/tombstones") (utf16 "766")
  exact chmod.bind fun _ => .ite archive trivial

/-- The part of `checkBandwidth_block` under the lock. -/
def bandwidth (serverIp user code : String16) : Program os String16 :=
  if checkIpaddr platform (platform.string serverIp) = false then pure (utf16 "")
  else do
    let t_start ← perform .time
    let _ ← executeCmd (downloadCommand platform serverIp user code) (zeros size1K) size1K
    if ← perform (.access bandtmpfile) then measureBandwidth platform t_start
    else pure (utf16 "")

/-- The whole method is this part. -/
theorem checkBandwidth_block_eq (serverIp user code : String16) :
    checkBandwidth_block platform serverIp user code =
      withLock .sNetLock (bandwidth platform serverIp user code) := rfl

/-- `checkBandwidth_block` takes no other lock under its own. -/
theorem bandwidth_uses (serverIp user code : String16) :
    Uses [.paths, .commands, .pipes, .clock, .buffers] (bandwidth platform serverIp user code) := by
  have scan : ∀ result, Uses [.paths, .commands, .pipes, .clock, .buffers] (scanSize result) := by
    intro result
    unfold scanSize
    split
    · trivial
    · exact (Uses.perform (.write _ _) (listed rfl)).bind fun _ => trivial
  refine .ite trivial ((Uses.perform .time (listed rfl)).bind fun t_start => ?_)
  refine (Uses.executeCmd (listed rfl) _ _ _).bind fun _ => ?_
  refine (Uses.perform (.access _) (listed rfl)).bind fun _ => .ite ?_ trivial
  refine (Uses.perform .time (listed rfl)).bind fun _ => ?_
  refine (Uses.executeCmd (listed rfl) _ _ _).bind fun _ => .ite trivial ?_
  refine (scan _).bind fun _ => ?_
  exact (Uses.mySystem (listed rfl) _).bind fun _ => trivial

/-- `startAvahi` asks for the state of the card and for the daemon, and runs its commands. -/
theorem startAvahi_uses : Uses [.paths, .commands, .pipes] (startAvahi platform) := by
  have unconfigured : Uses [.paths, .commands, .pipes] avahiUnconfigured :=
    (Uses.perform (.access _) (listed rfl)).bind fun _ =>
      .ite trivial (Uses.perform (.access _) (listed rfl))
  have configured : Uses [.paths, .commands, .pipes] configureAvahi :=
    unconfigured.bind fun _ => .ite (Uses.mySystem (listed rfl) _) trivial
  have running : Uses [.paths, .commands, .pipes] (avahiRunning platform) :=
    (Uses.getNetcardState (listed rfl)).bind fun _ =>
      .ite ((Uses.getProcessId (listed rfl) _).bind fun _ => trivial) trivial
  have killed : Uses [.paths, .commands, .pipes] (killAvahi platform) :=
    running.bind fun _ => .ite (Uses.mySystem (listed rfl) _) trivial
  refine configured.bind fun _ => .ite trivial ?_
  refine (Uses.perform (.access _) (listed rfl)).bind fun _ => .ite ?_ trivial
  exact killed.bind fun _ => .ite trivial (Uses.ignored (listed rfl) _)

/-- `setDeviceResolution` uses the device only. -/
theorem setDeviceResolution_uses (xres yres refresh flag : Int32) :
    Uses [.device] (setDeviceResolution xres yres refresh flag) := by
  have closed : ∀ value : Bool, Uses [.device] (do perform .close; pure value) := fun value =>
    (Uses.perform .close (listed rfl)).bind fun _ => trivial
  refine .ite trivial (.ite trivial (.ite trivial (.ite trivial ?_)))
  refine (Uses.perform (.open _) (listed rfl)).bind fun _ => .ite ?_ trivial
  refine (Uses.perform .uninitialized (listed rfl)).bind fun _ => ?_
  refine (Uses.perform (.ioctl _ _) (listed rfl)).bind fun read => ?_
  cases read with
  | none => exact closed false
  | some sysData =>
    refine (Uses.perform (.ioctl _ _) (listed rfl)).bind fun stored => ?_
    cases stored with
    | none => exact closed false
    | some sysData =>
      refine (Uses.perform (.ioctl _ _) (listed rfl)).bind fun reread => ?_
      cases reread with
      | none => exact closed false
      | some sysData => exact closed true

/-- `getSupportResolution` reads its file and writes its buffer. -/
theorem getSupportResolution_uses : Uses [.files, .buffers] (getSupportResolution platform) := by
  refine (Uses.perform (.fopen _ _) (listed rfl)).bind fun opened => ?_
  cases opened with
  | none => trivial
  | some file =>
    refine .ite ((Uses.perform .fclose (listed rfl)).bind fun _ => trivial) ?_
    refine (Uses.listResolutions (listed rfl) _ _ _).bind fun _ => ?_
    exact (Uses.perform .fclose (listed rfl)).bind fun _ => trivial

/-- `getCpuInfo` runs a command, reads a property and writes its buffer. -/
theorem getCpuInfo_uses : Uses [.pipes, .properties, .buffers] (getCpuInfo platform) := by
  have append : ∀ capacity res sub, Uses [.pipes, .properties, .buffers] (strcat capacity res sub) :=
    fun _ _ _ => (Uses.perform (.write _ _) (listed rfl)).bind fun _ => trivial
  refine (Uses.executeCmd (listed rfl) _ _ _).bind fun _ => .ite trivial ?_
  refine (Uses.perform (.propertyGet _) (listed rfl)).bind fun _ => .ite trivial ?_
  exact (append _ _ _).bind fun _ => (append _ _ _).bind fun _ => trivial

/-- `getStorageInfo` asks for the size of the storage. -/
theorem getStorageInfo_uses : Uses [.storage] (getStorageInfo platform) := by
  have size : Uses [.storage] (getStorageSize platform (ascii "/data")) := by
    refine (Uses.perform (.statfs _) (listed rfl)).bind fun sizes => ?_
    cases sizes with
    | none => trivial
    | some sizes => exact .ite trivial (.ite (.ite trivial trivial) trivial)
  exact size.bind fun _ => trivial

/-- `getOtaResult` runs a command and writes its buffer. -/
theorem getOtaResult_uses : Uses [.pipes, .buffers] getOtaResult := by
  have scan : ∀ result, Uses [.pipes, .buffers] (scanUpdateFlag result) := by
    intro result
    unfold scanUpdateFlag
    split
    · trivial
    · exact (Uses.perform (.write _ _) (listed rfl)).bind fun _ => trivial
  refine (Uses.executeCmd (listed rfl) _ _ _).bind fun _ => .ite trivial ?_
  exact (scan _).bind fun _ => trivial

/-- Whatever a client calls with whatever arguments, and whatever the system answers, the method
stays within the facilities of the call. -/
theorem invoke_uses (self : RjcoreService) (call : Call) :
    Uses call.facilities (self.invoke platform call) := by
  cases call with
  | getCpuInfo => exact getCpuInfo_uses platform
  | getAndroidVersion => exact Uses.getProperty (listed rfl) _
  | getSystemVersion => exact Uses.getProperty (listed rfl) _
  | getSerialNumber => exact .ite trivial trivial
  | getProductType => exact .ite trivial trivial
  | getHardwareVesion => exact .ite trivial trivial
  | getProductId => exact .ite trivial trivial
  | getProductName =>
    exact (Uses.perform (.propertyGet _) (listed rfl)).bind fun _ => .ite trivial trivial
  | getBaseboardInfo => exact Uses.getProperty (listed rfl) _
  | getMemoryInfo => exact (Uses.executeCmd (listed rfl) _ _ _).bind fun _ => .ite trivial trivial
  | getStorageInfo => exact getStorageInfo_uses platform
  | setPowerState powerState => exact .ite trivial (.ite trivial (Uses.ignored (listed rfl) _))
  | getPowerState =>
    exact .ite trivial ((Uses.executeCmd (listed rfl) _ _ _).bind fun _ => trivial)
  | collectLogFiles_block zipFilename =>
    refine .ite trivial (.ite trivial (Uses.withLock (listed rfl) _ ?_))
    exact (collectLogs_uses platform zipFilename).widen (List.subset_cons_self _ _)
  | chmodFile path mode =>
    refine .ite trivial ((Uses.perform (.access _) (listed rfl)).bind fun _ => .ite ?_ trivial)
    refine (Uses.perform (.opendir _) (listed rfl)).bind fun _ => .ite trivial ?_
    exact (Uses.mySystem (listed rfl) _).bind fun _ =>
      .ite trivial (Uses.checkFileMode (listed rfl) _ _ _)
  | chmodDir path mode => exact Uses.chmodDir (listed rfl) (listed rfl) (listed rfl) path mode
  | rmFile path =>
    refine .ite trivial ((Uses.perform (.access _) (listed rfl)).bind fun _ => .ite ?_ trivial)
    refine (Uses.perform (.opendir _) (listed rfl)).bind fun _ => .ite trivial ?_
    exact (Uses.mySystem (listed rfl) _).bind fun _ => .ite trivial trivial
  | reboot => exact Uses.ignored (listed rfl) _
  | shutdown => exact Uses.ignored (listed rfl) _
  | getLedStatus color =>
    exact .ite trivial (.ite trivial ((Uses.executeCmd (listed rfl) _ _ _).bind fun _ => trivial))
  | setLedStatus color state =>
    exact .ite trivial (.ite trivial (.ite trivial (Uses.ignored (listed rfl) _)))
  | setDeviceResolution xres yres refresh flag => exact setDeviceResolution_uses xres yres refresh flag
  | getCurrentResolution_block => exact Uses.reportText (listed rfl) _
  | getSupportResolution => exact getSupportResolution_uses platform
  | getPropertyValue key =>
    exact .ite trivial ((Uses.perform (.propertyGet _) (listed rfl)).bind fun _ => trivial)
  | getNetcardState => exact Uses.getNetcardState (listed rfl)
  | getNetcardCurSpeed => exact Uses.reportText (listed rfl) _
  | getNetcardMaxSpeed =>
    exact (Uses.executeCmd (listed rfl) _ _ _).bind fun _ =>
      .ite trivial (.ite trivial (.ite trivial trivial))
  | startAvahi => exact startAvahi_uses platform
  | stopAvahi =>
    exact (Uses.perform (.access _) (listed rfl)).bind fun _ =>
      .ite (Uses.ignored (listed rfl) _) trivial
  | checkIpConflict_block ip =>
    exact .ite trivial ((Uses.getNetcardState (listed rfl)).bind fun _ =>
      .ite (Uses.reportText (listed rfl) _) trivial)
  | ping_block ip count timeout deadline =>
    exact .ite trivial (.ite trivial (Uses.reportText (listed rfl) _))
  | checkBandwidth_block serverIp user code =>
    change Uses _ (checkBandwidth_block platform serverIp user code)
    rw [checkBandwidth_block_eq]
    refine Uses.withLock (listed rfl) _ ?_
    exact (bandwidth_uses platform serverIp user code).widen (List.subset_cons_self _ _)
  | getOtaResult => exact getOtaResult_uses
  | isProcessRunning processname =>
    exact (Uses.executeCmd (listed rfl) _ _ _).bind fun _ => trivial
  | getProcessId processname => exact Uses.getProcessId (listed rfl) processname
  | killByProcessName processname =>
    exact (Uses.getProcessId (listed rfl) processname).bind fun _ =>
      .ite trivial (Uses.ignored (listed rfl) _)

end RjcoreService

end Rjcore
