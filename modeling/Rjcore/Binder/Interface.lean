import Rjcore.Interaction.Program

/-!
# The binder interface

The calls of `IRjcoreService` with their parameters and results, in the order of the class,
and the transaction codes under which the proxy and the stub name them.
-/

namespace Rjcore

open Interaction

/-- `String16`: UTF-16 code units, of any content and length. -/
abbrev String16 : Type := List UInt16

/-- `String16` of an ASCII literal. -/
def utf16 (literal : String) : String16 := literal.toList.map fun char => char.val.toUInt16

/-- A call of `IRjcoreService` with its arguments. -/
inductive Call
  -- Product Utils
  | getCpuInfo
  | getAndroidVersion
  | getSystemVersion
  | getSerialNumber
  | getProductType
  | getHardwareVesion
  | getProductId
  | getProductName
  | getBaseboardInfo
  | getMemoryInfo
  | getStorageInfo
  | setPowerState (powerState : Int32)
  | getPowerState
  | collectLogFiles_block (zipFilename : String16)
  | chmodFile (path mode : String16)
  | chmodDir (path mode : String16)
  | rmFile (path : String16)
  | reboot
  | shutdown
  | getLedStatus (color : Int32)
  | setLedStatus (color state : Int32)
  | setDeviceResolution (xres yres refresh flag : Int32)
  | getCurrentResolution_block
  | getSupportResolution
  | getPropertyValue (key : String16)
  -- Network Utils
  | getNetcardState
  | getNetcardCurSpeed
  | getNetcardMaxSpeed
  | startAvahi
  | stopAvahi
  | checkIpConflict_block (ip : String16)
  | ping_block (ip : String16) (count timeout deadline : Int32)
  | checkBandwidth_block (serverIp user code : String16)
  -- Control Utils
  | getOtaResult
  -- Application Utils
  | isProcessRunning (processname : String16)
  | getProcessId (processname : String16)
  | killByProcessName (processname : String16)
  deriving DecidableEq

/-- The types of results. -/
inductive ReplyType
  | void
  | int32
  | bool
  | string16

/-- The values of a result type. -/
abbrev ReplyType.Val : ReplyType → Type
  | .void => Unit
  | .int32 => Int32
  | .bool => Bool
  | .string16 => String16

/-- The kind of result a call returns. -/
abbrev Call.replyType : Call → ReplyType
  | .setPowerState _ | .reboot | .shutdown | .setLedStatus _ _ | .startAvahi | .stopAvahi
  | .killByProcessName _ => .void
  | .getPowerState | .getLedStatus _ => .int32
  | .collectLogFiles_block _ | .chmodFile _ _ | .chmodDir _ _ | .rmFile _
  | .setDeviceResolution _ _ _ _ | .getNetcardState | .getOtaResult | .isProcessRunning _ => .bool
  | _ => .string16

/-- The result type of a call. -/
abbrev Call.Ret (call : Call) : Type := call.replyType.Val

/-- Invocations of the service and their results. -/
abbrev service : Signature := ⟨Call, Call.Ret⟩

/-- The enumeration of transaction codes. -/
inductive TransactionCode
  -- Product Utils
  | getCpuInfo
  | getAndroidVersion
  | getSystemVersion
  | getSerialNumber
  | getProductType
  | getHardwareVersion
  | getProductId
  | getProductName
  | getBaseboardInfo
  | getMemoryInfo
  | getStorageInfo
  | setPowerState
  | getPowerState
  | collectLogFilesBlock
  | chmodFile
  | chmodDir
  | rmFile
  | reboot
  | shutdown
  | getLedStatus
  | setLedStatus
  | setDeviceResolution
  | getCurrentResolutionBlock
  | getSupportResolution
  | getPropertyValue
  -- Network Utils
  | getNetcardState
  | getNetcardCurSpeed
  | getNetcardMaxSpeed
  | startAvahi
  | stopAvahi
  | checkIpConflictBlock
  | pingBlock
  | checkBandwidthBlock
  -- Control Utils
  | getOtaResult
  -- Application Utils
  | isProcessRunning
  | getProcessId
  | killProcessByName
  deriving DecidableEq

namespace TransactionCode

/-- `IBinder::FIRST_CALL_TRANSACTION`. -/
def firstCallTransaction : UInt32 := 1

/-- The number of a code: the enumeration counts up from the first call transaction. -/
def value (code : TransactionCode) : UInt32 := firstCallTransaction + UInt32.ofNat code.ctorIdx

/-- The codes in the order of the enumeration. -/
def all : List TransactionCode :=
  [.getCpuInfo, .getAndroidVersion, .getSystemVersion, .getSerialNumber, .getProductType,
    .getHardwareVersion, .getProductId, .getProductName, .getBaseboardInfo, .getMemoryInfo,
    .getStorageInfo, .setPowerState, .getPowerState, .collectLogFilesBlock, .chmodFile, .chmodDir,
    .rmFile, .reboot, .shutdown, .getLedStatus, .setLedStatus, .setDeviceResolution,
    .getCurrentResolutionBlock, .getSupportResolution, .getPropertyValue, .getNetcardState,
    .getNetcardCurSpeed, .getNetcardMaxSpeed, .startAvahi, .stopAvahi, .checkIpConflictBlock,
    .pingBlock, .checkBandwidthBlock, .getOtaResult, .isProcessRunning, .getProcessId,
    .killProcessByName]

/-- The `case` label a code selects, if there is one. -/
def ofValue (value : UInt32) : Option TransactionCode := all.find? fun code => code.value = value

/-- Every code selects its own label. -/
@[simp] theorem ofValue_value (code : TransactionCode) : ofValue code.value = some code := by
  cases code <;> rfl

end TransactionCode

/-- The transaction code of the method a call names. -/
def Call.code : Call → TransactionCode
  | .getCpuInfo => .getCpuInfo
  | .getAndroidVersion => .getAndroidVersion
  | .getSystemVersion => .getSystemVersion
  | .getSerialNumber => .getSerialNumber
  | .getProductType => .getProductType
  | .getHardwareVesion => .getHardwareVersion
  | .getProductId => .getProductId
  | .getProductName => .getProductName
  | .getBaseboardInfo => .getBaseboardInfo
  | .getMemoryInfo => .getMemoryInfo
  | .getStorageInfo => .getStorageInfo
  | .setPowerState _ => .setPowerState
  | .getPowerState => .getPowerState
  | .collectLogFiles_block _ => .collectLogFilesBlock
  | .chmodFile _ _ => .chmodFile
  | .chmodDir _ _ => .chmodDir
  | .rmFile _ => .rmFile
  | .reboot => .reboot
  | .shutdown => .shutdown
  | .getLedStatus _ => .getLedStatus
  | .setLedStatus _ _ => .setLedStatus
  | .setDeviceResolution _ _ _ _ => .setDeviceResolution
  | .getCurrentResolution_block => .getCurrentResolutionBlock
  | .getSupportResolution => .getSupportResolution
  | .getPropertyValue _ => .getPropertyValue
  | .getNetcardState => .getNetcardState
  | .getNetcardCurSpeed => .getNetcardCurSpeed
  | .getNetcardMaxSpeed => .getNetcardMaxSpeed
  | .startAvahi => .startAvahi
  | .stopAvahi => .stopAvahi
  | .checkIpConflict_block _ => .checkIpConflictBlock
  | .ping_block _ _ _ _ => .pingBlock
  | .checkBandwidth_block _ _ _ => .checkBandwidthBlock
  | .getOtaResult => .getOtaResult
  | .isProcessRunning _ => .isProcessRunning
  | .getProcessId _ => .getProcessId
  | .killByProcessName _ => .killProcessByName

end Rjcore
