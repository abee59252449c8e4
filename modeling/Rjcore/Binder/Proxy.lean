import Rjcore.Binder.Parcel

/-!
# The proxy

`BpRjcoreService` writes the interface token and the arguments, transacts, and decodes the
reply whatever came back: the status of the transaction and the exception code are dropped.
-/

namespace Rjcore

open Interaction

/-- `IRjcoreService::getInterfaceDescriptor()`. -/
def interfaceDescriptor : String16 := utf16 "com.ruijie.core.library.interfaces.IRjcoreManager"

/-- Transactions on the remote binder: code and request, answered by the reply parcel as
the transaction leaves it. -/
abbrev remote (lib : Libbinder) : Signature := ⟨UInt32 × lib.Parcel, fun _ => lib.Parcel⟩

namespace BpRjcoreService

variable (lib : Libbinder)

/-- The request parcel: the interface token and the arguments in the order written. -/
def request (args : List Item) : lib.Parcel :=
  args.foldl lib.write (lib.writeInterfaceToken interfaceDescriptor lib.empty)

/-- Read a result of the given type: an integer read for a `bool` is compared with zero. -/
def readReply : (type : ReplyType) → lib.Parcel → type.Val
  | .void, _ => ()
  | .int32, reply => (lib.readInt32 reply).1
  | .bool, reply => (lib.readInt32 reply).1 != 0
  | .string16, reply => (lib.readString16 reply).1

/-- Transact, read the exception code and drop it, then read the result. -/
def transact (type : ReplyType) (code : TransactionCode) (args : List Item) :
    Program (remote lib) type.Val :=
  .ask (code.value, request lib args) fun reply =>
    .done (readReply lib type (lib.readExceptionCode reply).2)

/-! ## Product Utils -/

def getCpuInfo : Program (remote lib) String16 := transact lib .string16 .getCpuInfo []

def getAndroidVersion : Program (remote lib) String16 := transact lib .string16 .getAndroidVersion []

def getSystemVersion : Program (remote lib) String16 := transact lib .string16 .getSystemVersion []

def getSerialNumber : Program (remote lib) String16 := transact lib .string16 .getSerialNumber []

def getProductType : Program (remote lib) String16 := transact lib .string16 .getProductType []

def getHardwareVesion : Program (remote lib) String16 :=
  transact lib .string16 .getHardwareVersion []

def getProductId : Program (remote lib) String16 := transact lib .string16 .getProductId []

def getProductName : Program (remote lib) String16 := transact lib .string16 .getProductName []

def getBaseboardInfo : Program (remote lib) String16 := transact lib .string16 .getBaseboardInfo []

def getMemoryInfo : Program (remote lib) String16 := transact lib .string16 .getMemoryInfo []

def getStorageInfo : Program (remote lib) String16 := transact lib .string16 .getStorageInfo []

def setPowerState (powerState : Int32) : Program (remote lib) Unit :=
  transact lib .void .setPowerState [.int32 powerState]

def getPowerState : Program (remote lib) Int32 := transact lib .int32 .getPowerState []

def collectLogFiles_block (zipFilename : String16) : Program (remote lib) Bool :=
  transact lib .bool .collectLogFilesBlock [.string16 zipFilename]

def chmodFile (path mode : String16) : Program (remote lib) Bool :=
  transact lib .bool .chmodFile [.string16 path, .string16 mode]

def chmodDir (path mode : String16) : Program (remote lib) Bool :=
  transact lib .bool .chmodDir [.string16 path, .string16 mode]

def rmFile (path : String16) : Program (remote lib) Bool :=
  transact lib .bool .rmFile [.string16 path]

def reboot : Program (remote lib) Unit := transact lib .void .reboot []

def shutdown : Program (remote lib) Unit := transact lib .void .shutdown []

def getLedStatus (color : Int32) : Program (remote lib) Int32 :=
  transact lib .int32 .getLedStatus [.int32 color]

def setLedStatus (color state : Int32) : Program (remote lib) Unit :=
  transact lib .void .setLedStatus [.int32 color, .int32 state]

def setDeviceResolution (xres yres refresh flag : Int32) : Program (remote lib) Bool :=
  transact lib .bool .setDeviceResolution [.int32 xres, .int32 yres, .int32 refresh, .int32 flag]

def getCurrentResolution_block : Program (remote lib) String16 :=
  transact lib .string16 .getCurrentResolutionBlock []

def getSupportResolution : Program (remote lib) String16 :=
  transact lib .string16 .getSupportResolution []

def getPropertyValue (key : String16) : Program (remote lib) String16 :=
  transact lib .string16 .getPropertyValue [.string16 key]

/-! ## Network Utils -/

def getNetcardState : Program (remote lib) Bool := transact lib .bool .getNetcardState []

def getNetcardCurSpeed : Program (remote lib) String16 :=
  transact lib .string16 .getNetcardCurSpeed []

def getNetcardMaxSpeed : Program (remote lib) String16 :=
  transact lib .string16 .getNetcardMaxSpeed []

def startAvahi : Program (remote lib) Unit := transact lib .void .startAvahi []

def stopAvahi : Program (remote lib) Unit := transact lib .void .stopAvahi []

def checkIpConflict_block (ip : String16) : Program (remote lib) String16 :=
  transact lib .string16 .checkIpConflictBlock [.string16 ip]

def ping_block (ip : String16) (count timeout deadline : Int32) : Program (remote lib) String16 :=
  transact lib .string16 .pingBlock [.string16 ip, .int32 count, .int32 timeout, .int32 deadline]

def checkBandwidth_block (serverIp user code : String16) : Program (remote lib) String16 :=
  transact lib .string16 .checkBandwidthBlock [.string16 serverIp, .string16 user, .string16 code]

/-! ## Control Utils -/

def getOtaResult : Program (remote lib) Bool := transact lib .bool .getOtaResult []

/-! ## Application Utils -/

def isProcessRunning (processname : String16) : Program (remote lib) Bool :=
  transact lib .bool .isProcessRunning [.string16 processname]

def getProcessId (processname : String16) : Program (remote lib) String16 :=
  transact lib .string16 .getProcessId [.string16 processname]

def killByProcessName (processname : String16) : Program (remote lib) Unit :=
  transact lib .void .killProcessByName [.string16 processname]

/-- The proxy method of a call, applied to its arguments. -/
def invoke : (call : Call) → Program (remote lib) call.Ret
  | .getCpuInfo => getCpuInfo lib
  | .getAndroidVersion => getAndroidVersion lib
  | .getSystemVersion => getSystemVersion lib
  | .getSerialNumber => getSerialNumber lib
  | .getProductType => getProductType lib
  | .getHardwareVesion => getHardwareVesion lib
  | .getProductId => getProductId lib
  | .getProductName => getProductName lib
  | .getBaseboardInfo => getBaseboardInfo lib
  | .getMemoryInfo => getMemoryInfo lib
  | .getStorageInfo => getStorageInfo lib
  | .setPowerState powerState => setPowerState lib powerState
  | .getPowerState => getPowerState lib
  | .collectLogFiles_block zipFilename => collectLogFiles_block lib zipFilename
  | .chmodFile path mode => chmodFile lib path mode
  | .chmodDir path mode => chmodDir lib path mode
  | .rmFile path => rmFile lib path
  | .reboot => reboot lib
  | .shutdown => shutdown lib
  | .getLedStatus color => getLedStatus lib color
  | .setLedStatus color state => setLedStatus lib color state
  | .setDeviceResolution xres yres refresh flag => setDeviceResolution lib xres yres refresh flag
  | .getCurrentResolution_block => getCurrentResolution_block lib
  | .getSupportResolution => getSupportResolution lib
  | .getPropertyValue key => getPropertyValue lib key
  | .getNetcardState => getNetcardState lib
  | .getNetcardCurSpeed => getNetcardCurSpeed lib
  | .getNetcardMaxSpeed => getNetcardMaxSpeed lib
  | .startAvahi => startAvahi lib
  | .stopAvahi => stopAvahi lib
  | .checkIpConflict_block ip => checkIpConflict_block lib ip
  | .ping_block ip count timeout deadline => ping_block lib ip count timeout deadline
  | .checkBandwidth_block serverIp user code => checkBandwidth_block lib serverIp user code
  | .getOtaResult => getOtaResult lib
  | .isProcessRunning processname => isProcessRunning lib processname
  | .getProcessId processname => getProcessId lib processname
  | .killByProcessName processname => killByProcessName lib processname

end BpRjcoreService

end Rjcore
