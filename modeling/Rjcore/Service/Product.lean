import Rjcore.Service.RjcoreService

/-!
# Product utilities

The methods of `RjcoreServiceProduct.cpp`, in its order.
-/

namespace Rjcore

open Interaction CText

variable (platform : Platform)

/-- The last byte of the string in a buffer, when it is a newline, is replaced. -/
def replaceNewline (res : Bytes) (byte : UInt8) : Bytes :=
  let len := (cstr res).length
  if res.getD (len - 1) 0 = newline then res.set (len - 1) byte else res

/-- `strcat` into a buffer of some capacity. -/
def strcat (capacity : Nat) (res sub : Bytes) : Program os Bytes := do
  let len := (cstr res).length
  perform (.write capacity (len + sub.length + 1))
  pure (overwrite res len (sub ++ [nul]))

/-- `litConverBig`. -/
def litConverBig (buf : Bytes) : Bytes := buf.map toUpper

/-- `getStorageSize`: the size is printed in the largest unit that leaves more than one
of it. -/
def getStorageSize (s : Bytes) : Program os Bytes := do
  match ← perform (.statfs s) with
  | none => pure (platform.printSize 0 ++ ascii "K")
  | some (blocks, bsize) =>
    if blocks = 0 then pure (platform.printSize 0 ++ ascii "K")
    else
      let size : Rat := blocks * bsize / 1024
      if size > 1024 then
        if size / 1024 > 1024 then pure (platform.printSize (size / 1024 / 1024) ++ ascii "G")
        else pure (platform.printSize (size / 1024) ++ ascii "M")
      else pure (platform.printSize size ++ ascii "K")

/-- The command of `checkFileMode` for a mode of three digits. -/
def statCommand3 (path : Bytes) : Command :=
  .printf size1KHalf
    "stat %s | head -n4 |tail -n1 | cut -d \"/\" -f1 | cut -d \"(\" -f2 |  sed 's/.//'"
    [.client path]

/-- The command of `checkFileMode` for a mode of four digits. -/
def statCommand4 (path : Bytes) : Command :=
  .printf size1KHalf "stat %s | head -n4 |tail -n1 | cut -d \"/\" -f1 | cut -d \"(\" -f2"
    [.client path]

/-- `checkFileMode`. -/
def checkFileMode (path mode : Bytes) (modeLen : Nat) : Program os Bool :=
  if modeLen = 3 then do
    let checkMode ← executeCmd (statCommand3 path) (zeros size1KHalf) size1KHalf
    pure (strncmpEq 3 (cstr checkMode) mode)
  else if modeLen = 4 then do
    let checkMode ← executeCmd (statCommand4 path) (zeros size1KHalf) size1KHalf
    pure (strncmpEq 4 (cstr checkMode) mode)
  else pure false

namespace RjcoreService

/-- `RjcoreService::getCpuInfo`. -/
def getCpuInfo : Program os String16 := do
  let res ← executeCmd
    (.literal "cat /proc/cpuinfo | grep Processor | awk '\x7bprint $3,$4,$5,$6,$7\x7d'")
    (zeros size1K) size1K
  if cstr res = [] then pure (utf16 "")
  else do
    let res := replaceNewline res 32
    let sub ← perform (.propertyGet (ascii "ro.product.name"))
    if sub.text = [] then pure (utf16 "")
    else do
      let res ← strcat size1K res (litConverBig sub.text)
      let res ← strcat size1K res (ascii " CPU, @ 1.6GHz")
      pure (platform.string16 (cstr res))

/-- The methods that report one system property. -/
def getProperty (key : String) : Program os String16 := do
  let res ← perform (.propertyGet (ascii key))
  if res.text = [] then pure (utf16 "") else pure (platform.string16 res.text)

/-- `RjcoreService::getAndroidVersion`. -/
def getAndroidVersion : Program os String16 := getProperty platform "ro.build.version.release"

/-- `RjcoreService::getSystemVersion`. -/
def getSystemVersion : Program os String16 := getProperty platform "ro.product.version"

variable (self : RjcoreService)

/-- `CHECK_INIT` in front of a member. -/
def checkInit (member : String16) : Program os String16 :=
  if self.mInit = false then pure (utf16 "") else pure member

/-- `RjcoreService::getSerialNumber`. -/
def getSerialNumber : Program os String16 := self.checkInit self.mSerialNum

/-- `RjcoreService::getProductType`. -/
def getProductType : Program os String16 := self.checkInit self.mProductType

/-- `RjcoreService::getHardwareVesion`. -/
def getHardwareVesion : Program os String16 := self.checkInit self.mHardwareVersion

/-- `RjcoreService::getProductId`. -/
def getProductId : Program os String16 := self.checkInit self.mProductId

/-- `RjcoreService::getProductName`. -/
def getProductName : Program os String16 := do
  let res ← perform (.propertyGet (ascii "ro.product.name"))
  if res.text = [] then pure (utf16 "") else pure (platform.string16 (litConverBig res.text))

/-- `RjcoreService::getBaseboardInfo`. -/
def getBaseboardInfo : Program os String16 := getProperty platform "ro.product.board"

/-- `RjcoreService::getMemoryInfo`. -/
def getMemoryInfo : Program os String16 := do
  let res ← executeCmd
    (.literal "cat /proc/meminfo | grep \"MemTotal:\" | awk '\x7bprint $2\x7d'")
    (zeros size1K) size1K
  if cstr res = [] then pure (utf16 "")
  else
    let memval := atoi (cstr res)
    let (memval, unit) := if memval > 1024 then (memval / 1024, ascii "M") else (memval, ascii "K")
    let (memval, unit) := if memval > 1024 then (memval / 1024, ascii "G") else (memval, unit)
    pure (platform.string16 (snprintf size1K (decimal memval ++ unit)))

/-- `RjcoreService::getStorageInfo`. -/
def getStorageInfo : Program os String16 := do
  let res ← getStorageSize platform (ascii "/data")
  pure (platform.string16 res)

/-- The product types without power control. -/
def withoutPowerControl (mProductType : String16) : Bool :=
  mProductType = utf16 "Rain100" || mProductType = utf16 "Rain100s" ||
    mProductType = utf16 "Rain100S" || mProductType = utf16 ""

/-- `RjcoreService::setPowerState`. -/
def setPowerState (powerState : Int32) : Program os Unit :=
  if powerState < 0 ∨ powerState > 1 then pure ()
  else if withoutPowerControl self.mProductType then pure ()
  else do
    let _ ← mySystem (.printf 128 "beginmode %d" [.value (decimal powerState.toInt)])
    pure ()

/-- The state a command printed as a digit, or -1. -/
def digitState (res : Bytes) : Int32 :=
  let first := platform.charValue (res.headD 0)
  if first < 48 then -1 else Int32.ofInt (first - 48)

/-- `RjcoreService::getPowerState`. -/
def getPowerState : Program os Int32 :=
  if withoutPowerControl self.mProductType then pure 0
  else do
    let res ← executeCmd (.literal "beginmode 2") (zeros size1K) size1K
    pure (digitState platform res)

/-- `RjcoreService::chmodFile`. -/
def chmodFile (path mode : String16) : Program os Bool :=
  if mode = utf16 "" then pure false
  else do
    if ← perform (.access (platform.string path)) then
      if ← perform (.opendir (platform.string path)) then pure false
      else
        let ret ← mySystem (.printf size1K "chmod %s %s"
          [.client (platform.string mode), .client (platform.string path)])
        if ret < 0 then pure false
        else
          checkFileMode (platform.string path) (platform.string mode)
            (platform.string mode).length
    else pure false

/-- `RjcoreService::chmodDir`. -/
def chmodDir (path mode : String16) : Program os Bool :=
  if mode = utf16 "" ∨ path = utf16 "" then pure false
  else do
    if ← perform (.opendir (platform.string path)) then
      let ret ← mySystem (.printf size1K "chmod -R %s %s"
        [.client (platform.string mode), .client (platform.string path)])
      if ret < 0 then pure false
      else
        checkFileMode (platform.string path) (platform.string mode)
          (platform.string mode).length
    else pure false

/-- `TOMBSTONES`. -/
def tombstones : Bytes := ascii "/data/tombstones"

/-- `CLIENT_LOG`. -/
def clientLog : Bytes := ascii "/sdcard/com.ruijie.rccstu"

/-- `PROC_LAST_LOG`. -/
def procLastLog : Bytes := ascii "/proc/last_log"

/-- `SYSTEM_LOG`. -/
def systemLog : Bytes := ascii "/data/systemLog"

/-- The archive of the logs. -/
def tarCommand : Command :=
  .printf size1K "tar zcvf /sdcard/localhost.tar.gz %s %s %s %s> /dev/null"
    [.text clientLog, .text procLastLog, .text tombstones, .text systemLog]

/-- The part of `collectLogFiles_block` after the tombstones are there. -/
def archiveLogs (zipFilename : String16) : Program os Bool := do
  if ← perform (.access clientLog) then
    if ← perform (.access procLastLog) then
      let ret ← mySystem tarCommand
      if ret < 0 then pure false
      else
        let ret ← mySystem (.printf size1K "mv /sdcard/localhost.tar.gz /sdcard/%s"
          [.client (platform.string zipFilename)])
        if ret < 0 then pure false
        else
          perform .sync
          pure true
    else pure false
  else pure false

/-- The part of `collectLogFiles_block` under the lock. -/
def collectLogs (zipFilename : String16) : Program os Bool := do
  let ret ← mySystem (.literal "save_systeminfo")
  if ret < 0 then pure false
  else if ← perform (.access systemLog) then
    if ← perform (.access tombstones) then archiveLogs platform zipFilename
    else
      let ret ← mySystem (.literal "mkdir /data/tombstones")
      if ret < 0 then pure false
      else if ← chmodDir platform (utf16 "/data/tombstones") (utf16 "766") then
        archiveLogs platform zipFilename
      else pure false
  else pure false

/-- `RjcoreService::collectLogFiles_block`. -/
def collectLogFiles_block (zipFilename : String16) : Program os Bool :=
  if zipFilename = utf16 "" then pure false
  else if strstr (platform.string zipFilename) (ascii ".zip") = false then pure false
  else withLock .sLockLog (collectLogs platform zipFilename)

/-- `RjcoreService::rmFile`. -/
def rmFile (path : String16) : Program os Bool :=
  if path = utf16 "" then pure false
  else do
    if ← perform (.access (platform.string path)) then
      if ← perform (.opendir (platform.string path)) then pure false
      else
        let ret ← mySystem (.printf size1K "rm -f %s" [.client (platform.string path)])
        if ret < 0 then pure false else pure true
    else pure false

/-- `RjcoreService::reboot`. -/
def reboot : Program os Unit := do
  let _ ← mySystem (.literal "reboot")
  pure ()

/-- `RjcoreService::shutdown`. -/
def shutdown : Program os Unit := do
  let _ ← mySystem (.literal "reboot -p")
  pure ()

/-- `RjcoreService::getLedStatus`. -/
def getLedStatus (color : Int32) : Program os Int32 :=
  if color < 0 ∨ color > 2 then pure (-1)
  else if self.mProductType ≠ utf16 "Rain200S" then pure (-1)
  else do
    let res ← executeCmd (.printf 128 "get_LED_ctrl %d | awk '\x7bprint $4\x7d'"
      [.value (decimal color.toInt)]) (zeros 128) 128
    pure (digitState platform res)

/-- `RjcoreService::setLedStatus`. -/
def setLedStatus (color state : Int32) : Program os Unit :=
  if color < 0 ∨ color > 2 then pure ()
  else if state < 0 ∨ state > 1 then pure ()
  else if self.mProductType ≠ utf16 "Rain200S" then pure ()
  else do
    let _ ← mySystem (.printf 128 "set_LED_ctrl %d %d"
      [.value (decimal color.toInt), .value (decimal state.toInt)])
    pure ()

/-! ## The vendor sector -/

/-- `RKNAND_DEVICE`. -/
def rknandDevice : Bytes := ascii "/dev/rknand_sys_storage"

/-- `VENDOR_SECTOR_OP_TAG`. -/
def vendorSectorOpTag : UInt32 := 0x444E4556

/-- `RKNAND_SYS_STORGAE_DATA_LEN - 8`. -/
def vendorSectorLen : UInt32 := 512 - 8

/-- The header `setDeviceResolution` writes before each request. -/
def withHeader (data : Vector UInt8 512) : RknandSysStorage :=
  ⟨vendorSectorOpTag, vendorSectorLen, data⟩

/-- The bytes of the sector that a resolution change rewrites: only the flag when it is
cleared, the flag, the size in little-endian order and the refresh rate when it is set. -/
def encodeResolution (xres yres refresh flag : Int32) (data : Vector UInt8 512) :
    Vector UInt8 512 :=
  let data := data.set 1 flag.toUInt32.toUInt8
  if flag ≠ 0 then
    let xres := xres.toUInt32.toUInt16
    let yres := yres.toUInt32.toUInt16
    data.set 1 0xAC |>.set 2 xres.toUInt8 |>.set 3 (xres >>> 8).toUInt8
      |>.set 4 yres.toUInt8 |>.set 5 (yres >>> 8).toUInt8 |>.set 6 refresh.toUInt32.toUInt8
  else data

/-- `RjcoreService::setDeviceResolution`. -/
def setDeviceResolution (xres yres refresh flag : Int32) : Program os Bool :=
  if refresh < 0 ∨ refresh > 100 then pure false
  else if flag < 0 ∨ flag > 1 then pure false
  else if xres < 800 ∨ xres > 2560 then pure false
  else if yres < 600 ∨ yres > 1600 then pure false
  else do
    if ← perform (.open rknandDevice) then
      let data ← perform .uninitialized
      match ← perform (.ioctl .rknandGetVendorSector0 (withHeader data)) with
      | none => do
        perform .close
        pure false
      | some sysData =>
        let data := encodeResolution xres yres refresh flag sysData.data
        match ← perform (.ioctl .rknandStoreVendorSector0 (withHeader data)) with
        | none => do
          perform .close
          pure false
        | some sysData =>
          match ← perform (.ioctl .rknandGetVendorSector0 (withHeader sysData.data)) with
          | none => do
            perform .close
            pure false
          | some _ => do
            perform .close
            pure true
    else pure false

/-- The methods that report the text a command prints, without its last newline. -/
def reportText (cmd : Command) : Program os String16 := do
  let res ← executeCmd cmd (zeros size1K) size1K
  if cstr res = [] then pure (utf16 "")
  else pure (platform.string16 (cstr (replaceNewline res nul)))

/-- `RjcoreService::getCurrentResolution_block`. -/
def getCurrentResolution_block : Program os String16 :=
  reportText platform
    (.literal "wm size | grep \"Physical size:\" | awk '\x7bprint $3\x7d'")

/-- `LCDINFO_PATH`. -/
def lcdinfoPath : Bytes := ascii "/sdcard/com.ruijie.rccstu/lcdinfo.ini"

/-- `MAX_RESOLUTION_SUPPORT`. -/
def maxResolutionSupport : Nat := 10

/-- `RESOLUTION_INFO_LEN`. -/
def resolutionInfoLen : Nat := 4

/-- `resolutionIndex`. -/
def resolutionIndex : List Bytes :=
  [ascii "800x600", ascii "1024x768", ascii "1280x720", ascii "1280x1024", ascii "1360x768",
    ascii "1366x768", ascii "1440x900", ascii "1600x900", ascii "1680x1050", ascii "1920x1080"]

/-- The bits of the supported resolutions, as the second and the first byte of the file
make up an `int`. -/
def supportIndex (buf : Bytes) : Int32 :=
  let high := Int32.ofInt (platform.charValue (buf.getD 1 0))
  let low := Int32.ofInt (platform.charValue (buf.getD 0 0))
  (high <<< 8 ||| low) &&& 0x3FF

/-- The loop of `getSupportResolution` from an index on. -/
def listResolutions (support : Int32) : List Nat → Bytes → Program os Bytes
  | [], res => pure res
  | i :: rest, res =>
    if support &&& (1 <<< Int32.ofNat i) ≠ 0 then do
      let tmp := snprintf 128 (ascii "\x7b" ++ resolutionIndex.getD i [] ++ ascii "\x7d,")
      let res ← strcat size1K res tmp
      listResolutions support rest res
    else listResolutions support rest res

/-- `RjcoreService::getSupportResolution`. -/
def getSupportResolution : Program os String16 := do
  match ← perform (.fopen lcdinfoPath (ascii "rb")) with
  | none => pure (utf16 "")
  | some file =>
    let buf := fread file.content 0 resolutionInfoLen
    if buf.length ≠ resolutionInfoLen then do
      perform .fclose
      pure (utf16 "")
    else do
      let res ← listResolutions (supportIndex platform buf)
        (List.range' 1 (maxResolutionSupport - 1)) (zeros size1K)
      let len := (cstr res).length
      let res := if len ≠ 0 ∧ res.getD (len - 1) 0 = 44 then res.set (len - 1) nul else res
      perform .fclose
      pure (platform.string16 (cstr res))

/-- `RjcoreService::getPropertyValue`. -/
def getPropertyValue (key : String16) : Program os String16 :=
  if key.length = 0 then pure (utf16 "")
  else do
    let res ← perform (.propertyGet (platform.string key))
    pure (platform.string16 res.text)

end RjcoreService

end Rjcore
