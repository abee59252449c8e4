import Rjcore.Service.Product

/-!
# Network utilities

The methods of `RjcoreServiceNetwork.cpp`. The two methods of the application utilities
that `startAvahi` uses stand in front.
-/

namespace Rjcore

open Interaction CText

variable (platform : Platform)

/-- `check_ipaddr(str) == 0`. -/
def checkIpaddr (str : Bytes) : Bool :=
  if str = [] then false else platform.inetPton4 str || platform.inetPton6 str

set_option maxRecDepth 2000 in
/-- An accepted address has 1 to 45 bytes, and each is taken literally by every shell. -/
theorem checkIpaddr_spec {platform : Platform} {str : Bytes}
    (accepted : checkIpaddr platform str = true) : str ≠ [] ∧ str.length ≤ 45 ∧ ∀ byte ∈ str,
      byte ∈ ascii "0123456789ABCDEFGHIJKLMNOPQRSTUVWXYZabcdefghijklmnopqrstuvwxyz./:_-" := by
  have digits : ∀ byte ∈ ascii "0123456789ABCDEFabcdef.:",
      byte ∈ ascii "0123456789ABCDEFGHIJKLMNOPQRSTUVWXYZabcdefghijklmnopqrstuvwxyz./:_-" :=
    List.forall_iff_forall_mem.mp (by decide)
  have known : platform.inetPton4 str = true ∨ platform.inetPton6 str = true := by
    unfold checkIpaddr at accepted
    split at accepted
    · contradiction
    · simpa using accepted
  obtain ⟨some_byte, short, text⟩ := platform.inetPton_address _ known
  exact ⟨some_byte, short, fun byte member => digits byte (text byte member)⟩

namespace RjcoreService

/-- The command that looks up a process. -/
def pidofCommand (processname : String16) : Command :=
  .printf size1KHalf "pidof %s" [.client (platform.string processname)]

/-- `RjcoreService::getProcessId`. -/
def getProcessId (processname : String16) : Program os String16 := do
  let res ← executeCmd (pidofCommand platform processname) (zeros size1KHalf) size1KHalf
  if cstr res = [] then pure (utf16 "") else pure (platform.string16 (cstr res))

/-- `RjcoreService::getNetcardState`. -/
def getNetcardState : Program os Bool := do
  let result ← executeCmd
    (.literal "ethtool eth0 | grep \"Link detected:\" | awk '\x7bprint $3\x7d'")
    (zeros size1K) size1K
  pure (strncmpEq 3 (cstr result) (ascii "yes"))

/-- `RjcoreService::getNetcardCurSpeed`. -/
def getNetcardCurSpeed : Program os String16 :=
  reportText platform (.literal "ethtool eth0 | grep \"Speed:\" | awk '\x7bprint $2\x7d'")

/-- `RjcoreService::getNetcardMaxSpeed`. -/
def getNetcardMaxSpeed : Program os String16 := do
  let result ← executeCmd (.literal "ethtool eth0 | grep -A2 \"Supported link modes:\"")
    (zeros size1K) size1K
  if strstr (cstr result) (ascii "1000baseT/Full") then pure (utf16 "1000")
  else if strstr (cstr result) (ascii "100baseT/Full") then pure (utf16 "100")
  else if strstr (cstr result) (ascii "10baseT/Full") then pure (utf16 "10")
  else pure (utf16 "")

/-- The condition under which `startAvahi` stops a running daemon first: the second
question is asked only when the first is answered positively. -/
def avahiRunning : Program os Bool := do
  if ← getNetcardState then
    let processId ← getProcessId platform (utf16 "avahi-autoipd")
    pure (processId != utf16 "")
  else pure false

/-- The condition under which `startAvahi` runs the configuration script. -/
def avahiUnconfigured : Program os Bool := do
  if ← perform (.access (ascii "/data/data/org.freedesktop.telepathy/files")) then pure false
  else perform (.access (ascii "/system/bin/config_avahi.sh"))

/-- The configuration of `startAvahi`: its status, zero when there is nothing to do. -/
def configureAvahi : Program os Int := do
  if ← avahiUnconfigured then mySystem (.literal "sh /system/bin/config_avahi.sh") else pure 0

/-- The end of a running daemon in `startAvahi`: its status, zero when there is none. -/
def killAvahi : Program os Int := do
  if ← avahiRunning platform then mySystem (.literal "/system/bin/avahi-autoipd --kill eth0")
  else pure 0

/-- The part of `startAvahi` after the configuration. -/
def launchAvahi : Program os Unit := do
  if ← perform (.access (ascii "/system/bin/avahi-autoipd_action.sh")) then
    let killed ← killAvahi platform
    if killed < 0 then pure ()
    else
      let _ ← mySystem (.literal ("/system/bin/avahi-autoipd --no-drop-root " ++
        "--script=/system/bin/avahi-autoipd_action.sh eth0 &"))
      pure ()
  else pure ()

/-- `RjcoreService::startAvahi`. -/
def startAvahi : Program os Unit := do
  let configured ← configureAvahi
  if configured < 0 then pure () else launchAvahi platform

/-- `RjcoreService::stopAvahi`. -/
def stopAvahi : Program os Unit := do
  if ← perform (.access (ascii "/system/bin/shutdown_avahi.sh")) then
    let _ ← mySystem (.literal "sh /system/bin/shutdown_avahi.sh")
    pure ()
  else pure ()

/-- `RjcoreService::checkIpConflict_block`. -/
def checkIpConflict_block (ip : String16) : Program os String16 :=
  if checkIpaddr platform (platform.string ip) = false then pure (utf16 "")
  else do
    if ← getNetcardState then
      reportText platform (.printf size1K "checkip %s -s | grep srcMac | awk '\x7bprint $2\x7d'"
        [.client (platform.string ip)])
    else pure (utf16 "")

/-- `RjcoreService::ping_block`. -/
def ping_block (ip : String16) (count timeout deadline : Int32) : Program os String16 :=
  if checkIpaddr platform (platform.string ip) = false then pure (utf16 "")
  else if count ≤ 0 ∨ timeout < 0 ∨ deadline < 0 then pure (utf16 "")
  else
    reportText platform (.printf size1K "ping -c %d -W %d -w %d %s | grep transmitted"
      [.value (decimal count.toInt), .value (decimal timeout.toInt),
        .value (decimal deadline.toInt), .client (platform.string ip)])

/-- The file `checkBandwidth_block` downloads to. -/
def bandtmpfile : Bytes := ascii "/data/data/com.ruijie.rccstu/bandtmpfile"

/-- The download of `checkBandwidth_block`. -/
def downloadCommand (serverIp user code : String16) : Command :=
  if user.length = 0 ∧ code.length = 0 then
    .printf size1K "wget -O %s ftp://%s/pub/speed_file &>/dev/null -T 15"
      [.text bandtmpfile, .client (platform.string serverIp)]
  else
    .printf size1K "wget -O %s ftp://%s:%s@%s/pub/speed_file &>/dev/null -T 15"
      [.text bandtmpfile, .client (platform.string user), .client (platform.string code),
        .client (platform.string serverIp)]

/-- The download is a command. -/
theorem downloadCommand_line_ne_nil (serverIp user code : String16) :
    (downloadCommand platform serverIp user code).line ≠ [] := by
  unfold downloadCommand
  split
  · exact Command.printf_line_ne_nil rfl (by decide) (by decide)
  · exact Command.printf_line_ne_nil rfl (by decide) (by decide)

/-- The measurement of the downloaded file. -/
def sizeCommand : Command :=
  .printf size1K "busybox du -h %s | awk '\x7bprint $1\x7d'" [.text bandtmpfile]

/-- The removal of the downloaded file. -/
def removeCommand : Command := .printf size1K "rm %s" [.text bandtmpfile]

/-- `sscanf(result, "%[^M]", buf_size)`: the string left in a fresh buffer. -/
def scanSize (result : Bytes) : Program os Bytes :=
  match sscanfUntil 77 result with
  | none => pure []
  | some size => do
    perform (.write size1KHalf (size.length + 1))
    pure size

/-- The part of `checkBandwidth_block` once the downloaded file is there. -/
def measureBandwidth (t_start : Int) : Program os String16 := do
  let t_end ← perform .time
  let result ← executeCmd sizeCommand (zeros size1K) size1K
  if cstr result = [] then pure (utf16 "")
  else do
    let buf_size ← scanSize (cstr result)
    let speed_str := snprintf size1KHalf
      (platform.printRatio (atof buf_size) (t_end - t_start) ++ ascii "Mb/s")
    let _ ← mySystem removeCommand
    pure (platform.string16 speed_str)

/-- `RjcoreService::checkBandwidth_block`. -/
def checkBandwidth_block (serverIp user code : String16) : Program os String16 :=
  withLock .sNetLock do
    if checkIpaddr platform (platform.string serverIp) = false then pure (utf16 "")
    else
      let t_start ← perform .time
      let _ ← executeCmd (downloadCommand platform serverIp user code) (zeros size1K) size1K
      if ← perform (.access bandtmpfile) then measureBandwidth platform t_start
      else pure (utf16 "")

end RjcoreService

end Rjcore
