import Mathlib.Data.Fin.VecNotation
import Rjcore.Binder.Proxy

/-!
# The stub

`BnRjcoreService::onTransact` checks the interface token of a request, reads the arguments
of the method the code names, invokes it, and writes its result after the no-exception
mark. Where a call has several arguments, the reads stand in its argument list and happen
in the order the compiler gave that call.
-/

namespace Rjcore

open Interaction

/-- The order in which the compiler evaluates the argument expressions of the call in each
`case`, for each number of them. -/
abbrev EvalOrder : Type := TransactionCode → (count : Nat) → Equiv.Perm (Fin count)

/-- `NO_ERROR`. -/
def noError : Int32 := 0

/-- `PERMISSION_DENIED`. -/
def permissionDenied : Int32 := -1

namespace BnRjcoreService

variable (lib : Libbinder)

/-- `CHECK_INTERFACE`: refuse a request without the interface token. -/
def checkInterface (data reply : lib.Parcel)
    (body : lib.Parcel → Program service (Int32 × lib.Parcel)) :
    Program service (Int32 × lib.Parcel) :=
  let checked := lib.checkInterface interfaceDescriptor data
  if checked.1 then body checked.2 else pure (permissionDenied, reply)

/-- Invoke a method of the service. -/
def invoke (call : Call) : Program service call.Ret := .ask call .done

/-- Write a result of the given type after the no-exception mark: a `bool` is written as the
integer it converts to. -/
def writeReply (reply : lib.Parcel) : (type : ReplyType) → type.Val → Int32 × lib.Parcel
  | .void, _ => (noError, lib.writeNoException reply)
  | .int32, status => (noError, lib.writeInt32 status (lib.writeNoException reply))
  | .bool, status =>
    (noError, lib.writeInt32 (if status then 1 else 0) (lib.writeNoException reply))
  | .string16, info => (noError, lib.writeString16 info (lib.writeNoException reply))

/-- `BnRjcoreService::onTransact`. -/
def onTransact (order : EvalOrder) (code : UInt32) (data reply : lib.Parcel) :
    Program service (Int32 × lib.Parcel) :=
  match TransactionCode.ofValue code with
  -- Product Utils
  | some .getCpuInfo => checkInterface lib data reply fun _ => do
    let info ← invoke .getCpuInfo
    pure (writeReply lib reply .string16 info)
  | some .getAndroidVersion => checkInterface lib data reply fun _ => do
    let info ← invoke .getAndroidVersion
    pure (writeReply lib reply .string16 info)
  | some .getSystemVersion => checkInterface lib data reply fun _ => do
    let info ← invoke .getSystemVersion
    pure (writeReply lib reply .string16 info)
  | some .getSerialNumber => checkInterface lib data reply fun _ => do
    let info ← invoke .getSerialNumber
    pure (writeReply lib reply .string16 info)
  | some .getProductType => checkInterface lib data reply fun _ => do
    let info ← invoke .getProductType
    pure (writeReply lib reply .string16 info)
  | some .getHardwareVersion => checkInterface lib data reply fun _ => do
    let info ← invoke .getHardwareVesion
    pure (writeReply lib reply .string16 info)
  | some .getProductId => checkInterface lib data reply fun _ => do
    let info ← invoke .getProductId
    pure (writeReply lib reply .string16 info)
  | some .getProductName => checkInterface lib data reply fun _ => do
    let info ← invoke .getProductName
    pure (writeReply lib reply .string16 info)
  | some .getBaseboardInfo => checkInterface lib data reply fun _ => do
    let info ← invoke .getBaseboardInfo
    pure (writeReply lib reply .string16 info)
  | some .getMemoryInfo => checkInterface lib data reply fun _ => do
    let info ← invoke .getMemoryInfo
    pure (writeReply lib reply .string16 info)
  | some .getStorageInfo => checkInterface lib data reply fun _ => do
    let info ← invoke .getStorageInfo
    pure (writeReply lib reply .string16 info)
  | some .setPowerState => checkInterface lib data reply fun data => do
    let (arg, _) := lib.readArgs (order .setPowerState 1) ![.int32] data
    invoke (.setPowerState (arg 0))
    pure (writeReply lib reply .void ())
  | some .getPowerState => checkInterface lib data reply fun _ => do
    let status ← invoke .getPowerState
    pure (writeReply lib reply .int32 status)
  | some .collectLogFilesBlock => checkInterface lib data reply fun data => do
    let (arg, _) := lib.readArgs (order .collectLogFilesBlock 1) ![.string16] data
    let status ← invoke (.collectLogFiles_block (arg 0))
    pure (writeReply lib reply .bool status)
  | some .chmodFile => checkInterface lib data reply fun data => do
    let (arg, _) := lib.readArgs (order .chmodFile 2) ![.string16, .string16] data
    let status ← invoke (.chmodFile (arg 0) (arg 1))
    pure (writeReply lib reply .bool status)
  | some .chmodDir => checkInterface lib data reply fun data => do
    let (arg, _) := lib.readArgs (order .chmodDir 2) ![.string16, .string16] data
    let status ← invoke (.chmodDir (arg 0) (arg 1))
    pure (writeReply lib reply .bool status)
  | some .rmFile => checkInterface lib data reply fun data => do
    let (arg, _) := lib.readArgs (order .rmFile 1) ![.string16] data
    let status ← invoke (.rmFile (arg 0))
    pure (writeReply lib reply .bool status)
  | some .shutdown => checkInterface lib data reply fun _ => do
    invoke .shutdown
    pure (writeReply lib reply .void ())
  | some .reboot => checkInterface lib data reply fun _ => do
    invoke .reboot
    pure (writeReply lib reply .void ())
  | some .getLedStatus => checkInterface lib data reply fun data => do
    let (arg, _) := lib.readArgs (order .getLedStatus 1) ![.int32] data
    let status ← invoke (.getLedStatus (arg 0))
    pure (writeReply lib reply .int32 status)
  | some .setLedStatus => checkInterface lib data reply fun data => do
    let (arg, _) := lib.readArgs (order .setLedStatus 2) ![.int32, .int32] data
    invoke (.setLedStatus (arg 0) (arg 1))
    pure (writeReply lib reply .void ())
  | some .setDeviceResolution => checkInterface lib data reply fun data => do
    let (arg, _) := lib.readArgs (order .setDeviceResolution 4) ![.int32, .int32, .int32, .int32]
      data
    let status ← invoke (.setDeviceResolution (arg 0) (arg 1) (arg 2) (arg 3))
    pure (writeReply lib reply .bool status)
  | some .getCurrentResolutionBlock => checkInterface lib data reply fun _ => do
    let info ← invoke .getCurrentResolution_block
    pure (writeReply lib reply .string16 info)
  | some .getSupportResolution => checkInterface lib data reply fun _ => do
    let info ← invoke .getSupportResolution
    pure (writeReply lib reply .string16 info)
  | some .getPropertyValue => checkInterface lib data reply fun data => do
    let (arg, _) := lib.readArgs (order .getPropertyValue 1) ![.string16] data
    let info ← invoke (.getPropertyValue (arg 0))
    pure (writeReply lib reply .string16 info)
  -- Network Utils
  | some .getNetcardState => checkInterface lib data reply fun _ => do
    let state ← invoke .getNetcardState
    pure (writeReply lib reply .bool state)
  | some .getNetcardCurSpeed => checkInterface lib data reply fun _ => do
    let info ← invoke .getNetcardCurSpeed
    pure (writeReply lib reply .string16 info)
  | some .getNetcardMaxSpeed => checkInterface lib data reply fun _ => do
    let info ← invoke .getNetcardMaxSpeed
    pure (writeReply lib reply .string16 info)
  | some .startAvahi => checkInterface lib data reply fun _ => do
    invoke .startAvahi
    pure (writeReply lib reply .void ())
  | some .stopAvahi => checkInterface lib data reply fun _ => do
    invoke .stopAvahi
    pure (writeReply lib reply .void ())
  | some .checkIpConflictBlock => checkInterface lib data reply fun data => do
    let (arg, _) := lib.readArgs (order .checkIpConflictBlock 1) ![.string16] data
    let info ← invoke (.checkIpConflict_block (arg 0))
    pure (writeReply lib reply .string16 info)
  | some .pingBlock => checkInterface lib data reply fun data => do
    let (arg, _) := lib.readArgs (order .pingBlock 4) ![.string16, .int32, .int32, .int32] data
    let info ← invoke (.ping_block (arg 0) (arg 1) (arg 2) (arg 3))
    pure (writeReply lib reply .string16 info)
  | some .checkBandwidthBlock => checkInterface lib data reply fun data => do
    let (arg, _) := lib.readArgs (order .checkBandwidthBlock 3) ![.string16, .string16, .string16]
      data
    let info ← invoke (.checkBandwidth_block (arg 0) (arg 1) (arg 2))
    pure (writeReply lib reply .string16 info)
  -- Control Utils
  | some .getOtaResult => checkInterface lib data reply fun _ => do
    let status ← invoke .getOtaResult
    pure (writeReply lib reply .bool status)
  -- Application Utils
  | some .isProcessRunning => checkInterface lib data reply fun data => do
    let (arg, _) := lib.readArgs (order .isProcessRunning 1) ![.string16] data
    let status ← invoke (.isProcessRunning (arg 0))
    pure (writeReply lib reply .bool status)
  | some .getProcessId => checkInterface lib data reply fun data => do
    let (arg, _) := lib.readArgs (order .getProcessId 1) ![.string16] data
    let info ← invoke (.getProcessId (arg 0))
    pure (writeReply lib reply .string16 info)
  | some .killProcessByName => checkInterface lib data reply fun data => do
    let (arg, _) := lib.readArgs (order .killProcessByName 1) ![.string16] data
    invoke (.killByProcessName (arg 0))
    pure (writeReply lib reply .void ())
  | none => pure (lib.onTransact code data reply)

end BnRjcoreService

end Rjcore
