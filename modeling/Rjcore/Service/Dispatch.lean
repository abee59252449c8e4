import Rjcore.Service.Network

/-!
# The whole service

The methods of `RjcoreServiceControl.cpp` and `RjcoreServiceApplication.cpp`, and the
method that each call of the interface reaches.
-/

namespace Rjcore

open Interaction CText

variable (platform : Platform)

namespace RjcoreService

/-- `sscanf(result, "updateFlag=%s", ota_res)`: the string left in a fresh buffer. -/
def scanUpdateFlag (result : Bytes) : Program os Bytes :=
  match sscanfWord (ascii "updateFlag=") result with
  | none => pure []
  | some word => do
    perform (.write size1K (word.length + 1))
    pure word

/-- `RjcoreService::getOtaResult`: the comparison includes the NUL. -/
def getOtaResult : Program os Bool := do
  let result ← executeCmd
    (.literal "cat /sdcard/com.ruijie.rccstu/config.ini | grep updateFlag") (zeros size1K) size1K
  if cstr result = [] then pure false
  else do
    let ota_res ← scanUpdateFlag (cstr result)
    pure (strncmpEq 15 ota_res (ascii "UPDATE_SUCCESS"))

/-- `RjcoreService::isProcessRunning`. -/
def isProcessRunning (processname : String16) : Program os Bool := do
  let res ← executeCmd (pidofCommand platform processname) (zeros size1K) size1K
  pure (cstr res != [])

/-- `RjcoreService::killByProcessName`. -/
def killByProcessName (processname : String16) : Program os Unit := do
  let processPid ← getProcessId platform processname
  if processPid = utf16 "" then pure ()
  else do
    let _ ← mySystem (.printf size1KHalf "kill -9 %s" [.value (platform.string processPid)])
    pure ()

/-- The method of the service that a call invokes. -/
def invoke (self : RjcoreService) : (call : Call) → Program os call.Ret
  | .getCpuInfo => getCpuInfo platform
  | .getAndroidVersion => getAndroidVersion platform
  | .getSystemVersion => getSystemVersion platform
  | .getSerialNumber => self.getSerialNumber
  | .getProductType => self.getProductType
  | .getHardwareVesion => self.getHardwareVesion
  | .getProductId => self.getProductId
  | .getProductName => getProductName platform
  | .getBaseboardInfo => getBaseboardInfo platform
  | .getMemoryInfo => getMemoryInfo platform
  | .getStorageInfo => getStorageInfo platform
  | .setPowerState powerState => self.setPowerState powerState
  | .getPowerState => getPowerState platform self
  | .collectLogFiles_block zipFilename => collectLogFiles_block platform zipFilename
  | .chmodFile path mode => chmodFile platform path mode
  | .chmodDir path mode => chmodDir platform path mode
  | .rmFile path => rmFile platform path
  | .reboot => reboot
  | .shutdown => shutdown
  | .getLedStatus color => getLedStatus platform self color
  | .setLedStatus color state => self.setLedStatus color state
  | .setDeviceResolution xres yres refresh flag => setDeviceResolution xres yres refresh flag
  | .getCurrentResolution_block => getCurrentResolution_block platform
  | .getSupportResolution => getSupportResolution platform
  | .getPropertyValue key => getPropertyValue platform key
  | .getNetcardState => getNetcardState
  | .getNetcardCurSpeed => getNetcardCurSpeed platform
  | .getNetcardMaxSpeed => getNetcardMaxSpeed
  | .startAvahi => startAvahi platform
  | .stopAvahi => stopAvahi
  | .checkIpConflict_block ip => checkIpConflict_block platform ip
  | .ping_block ip count timeout deadline => ping_block platform ip count timeout deadline
  | .checkBandwidth_block serverIp user code => checkBandwidth_block platform serverIp user code
  | .getOtaResult => getOtaResult
  | .isProcessRunning processname => isProcessRunning platform processname
  | .getProcessId processname => getProcessId platform processname
  | .killByProcessName processname => killByProcessName platform processname

/-- A binder thread that serves calls one after another. -/
def serve (self : RjcoreService) : List Call → Program os Unit
  | [] => pure ()
  | call :: rest => do
    let _ ← self.invoke platform call
    serve self rest

end RjcoreService

end Rjcore
