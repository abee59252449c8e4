import Mathlib.Algebra.Group.Nat.Defs
import Mathlib.Algebra.Ring.Int.Defs
import Rjcore.Service.ExecuteCmd

/-!
# The service object

The members of `RjcoreService` and its constructor, which fills them from the records of
`/proc/sn.info`. Every record is read into the same buffer: its header first, and then over
the header as many bytes as the header says.
-/

namespace Rjcore

open Interaction CText

namespace Platform

variable (platform : Platform)

/-- The conversion of an `int` to `size_t`. -/
def toSize (value : Int) : Nat := (value % 2 ^ platform.wordBits).toNat

/-- The conversion of a `size_t` to `int`. -/
def toInt (size : Nat) : Int := Int.bmod size (2 ^ 32)

end Platform

/-- The members of `RjcoreService`. -/
structure RjcoreService where
  mInit : Bool
  mSerialNum : String16
  mProductType : String16
  mHardwareVersion : String16
  mProductId : String16
  deriving DecidableEq

/-- `INFO_PATH`. -/
def infoPath : Bytes := ascii "/proc/sn.info"

/-- `SERIAL_NUMBER_LEN`. -/
def serialNumberLen : Nat := 2

/-- `PRODUCT_TYPE_OFF`. -/
def productTypeOff : Nat := 32

/-- `HARDWARE_VERSION_OFF`. -/
def hardwareVersionOff : Nat := 48

/-- `PRODUCT_ID_OFF`. -/
def productIdOff : Nat := 58

/-- `PRODUCT_ID_LEN`. -/
def productIdLen : Nat := 4

variable (platform : Platform)

/-- `readNand`: the buffer afterwards, or nothing when it returns `false`. -/
def readNand (file : File) (offset length : Nat) (res : Bytes) (lengthInNand : Bool) :
    Program os (Option Bytes) :=
  if file.seekable then
    let header := fread file.content offset length
    let res := overwrite res 0 header
    if header.length ≠ length then pure none
    else if lengthInNand = false then pure (some res)
    else do
      let val := platform.charValue (res.headD 0)
      let payload := fread file.content (offset + length) (platform.toSize val)
      perform (.write size1K payload.length)
      let res := overwrite res 0 payload
      if val ≠ Platform.toInt payload.length then pure none else pure (some res)
  else pure none

/-- The loop of `getNandStoreInfo` over the bytes of the product id: each is promoted to
`int`, shifted, and widened to `unsigned long`. -/
def convertProductId (res : Bytes) : BitVec platform.wordBits :=
  (List.range productIdLen).foldl (fun product_id i =>
    product_id ||| ((BitVec.ofInt 32 (platform.charValue (res.getD i 0))) <<<
      (32 - 8 * (i + 1))).signExtend platform.wordBits) 0

namespace RjcoreService

/-- `RjcoreService::getNandStoreInfo`: the members afterwards, and the result. -/
def getNandStoreInfo (self : RjcoreService) : Program os (RjcoreService × Bool) := do
  let self := { self with
    mSerialNum := utf16 "", mHardwareVersion := utf16 "", mProductType := utf16 "",
    mProductId := utf16 "" }
  match ← perform (.fopen infoPath (ascii "r+")) with
  | none => pure (self, false)
  | some file =>
    match ← readNand platform file 0 serialNumberLen (zeros size1K) true with
    | none => do
      perform .fclose
      pure (self, false)
    | some res =>
      let self := { self with mSerialNum := platform.string16 (cstr res) }
      match ← readNand platform file productTypeOff 1 (zeros size1K) true with
      | none => do
        perform .fclose
        pure (self, false)
      | some res =>
        let self := { self with mProductType := platform.string16 (cstr res) }
        match ← readNand platform file hardwareVersionOff 1 (zeros size1K) true with
        | none => do
          perform .fclose
          pure (self, false)
        | some res =>
          let self := { self with mHardwareVersion := platform.string16 (cstr res) }
          match ← readNand platform file productIdOff productIdLen (zeros size1K) false with
          | none => do
            perform .fclose
            pure (self, false)
          | some res => do
            let res := snprintf size1K (hex8 (convertProductId platform res).toNat)
            let self := { self with mProductId := platform.string16 (cstr res) }
            perform .fclose
            pure (self, true)

/-- `RjcoreService::init`: the members afterwards. -/
def init (self : RjcoreService) : Program os (RjcoreService × Int) := do
  let (self, stored) ← getNandStoreInfo platform self
  if stored = false then pure (self, -1) else pure ({ self with mInit := true }, 0)

/-- `RjcoreService::RjcoreService`. -/
def construct : Program os RjcoreService := do
  let (self, _) ← init platform ⟨false, utf16 "", utf16 "", utf16 "", utf16 ""⟩
  pure self

end RjcoreService

end Rjcore
