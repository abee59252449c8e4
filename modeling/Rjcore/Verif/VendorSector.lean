import Rjcore.Interaction.Sequence
import Rjcore.Service.Product

/-!
# The vendor sector

`setDeviceResolution` as a change of the vendor sector. The driver copies as many bytes
between the sector and the structure as the header says, which leaves the last eight alone;
in a successful call the copies cancel out, and the sector is changed exactly as
`encodeResolution` changes it. A call fails after the change when only the last read fails.
-/

namespace Rjcore

open Interaction CText RjcoreService

/-- The content of the vendor sector. -/
abbrev Sector : Type := Vector UInt8 512

/-- The first bytes of one sector over those of another. -/
def copied (len : UInt32) (source target : Sector) : Sector :=
  Vector.ofFn fun i => if i.val < len.toNat then source[i] else target[i]

/-- The driver: a read copies the front of the sector, a store changes it, and a request that
fails leaves it as it is. -/
def vendorSector : World os Sector
  | sector, .ioctl .rknandGetVendorSector0 sysData, answer, after =>
    after = sector ∧ ∀ read ∈ answer, read.data = copied sysData.len sector sysData.data
  | sector, .ioctl .rknandStoreVendorSector0 sysData, answer, after =>
    after = if answer.isSome then copied sysData.len sysData.data sector else sector
  | sector, _, _, after => after = sector

/-- The accepted arguments. -/
def Accepted (xres yres refresh flag : Int32) : Prop :=
  (0 ≤ refresh ∧ refresh ≤ 100) ∧ (flag = 0 ∨ flag = 1) ∧ (800 ≤ xres ∧ xres ≤ 2560) ∧
    600 ≤ yres ∧ yres ≤ 1600

/-- Two bytes as a little-endian number. -/
def littleEndian (low high : UInt8) : Int := low.toNat + 256 * high.toNat

/-- The byte that says whether the sector holds a resolution. -/
def flagByte (sector : Sector) : UInt8 := sector.get 1

/-- The sector holds a setting: the cleared flag, or the set flag, the size and the rate. -/
def Holds (xres yres refresh flag : Int32) (sector : Sector) : Prop :=
  (flag = 0 → flagByte sector = 0) ∧
    (flag = 1 → flagByte sector = 0xAC ∧
      littleEndian (sector.get 2) (sector.get 3) = xres.toInt ∧
      littleEndian (sector.get 4) (sector.get 5) = yres.toInt ∧
      ((sector.get 6).toNat : Int) = refresh.toInt)

/-- The positions a change of the resolution rewrites. -/
def Rewritten (flag : Int32) (i : Nat) : Prop := i = 1 ∨ flag = 1 ∧ 2 ≤ i ∧ i ≤ 6

section Bytes

variable {xres yres refresh flag : Int32} {data sector : Sector}

/-- The byte a change of the resolution writes at a position. -/
def written (xres yres refresh flag : Int32) : Nat → Option UInt8
  | 1 => some (if flag ≠ 0 then 0xAC else flag.toUInt32.toUInt8)
  | 2 => if flag ≠ 0 then some xres.toUInt32.toUInt16.toUInt8 else none
  | 3 => if flag ≠ 0 then some (xres.toUInt32.toUInt16 >>> 8).toUInt8 else none
  | 4 => if flag ≠ 0 then some yres.toUInt32.toUInt16.toUInt8 else none
  | 5 => if flag ≠ 0 then some (yres.toUInt32.toUInt16 >>> 8).toUInt8 else none
  | 6 => if flag ≠ 0 then some refresh.toUInt32.toUInt8 else none
  | _ => none

/-- A copied byte. -/
theorem copied_get (len : UInt32) (source target : Sector) {i : Nat} (inside : i < 512) :
    (copied len source target)[i] = if i < len.toNat then source[i] else target[i] := by
  rw [copied, Vector.getElem_ofFn]
  rfl

/-- A byte after a change of the resolution. -/
theorem encodeResolution_get {i : Nat} (inside : i < 512) :
    (encodeResolution xres yres refresh flag data)[i] =
      (written xres yres refresh flag i).getD data[i] := by
  match i with
  | 0 | 1 | 2 | 3 | 4 | 5 | 6 | i + 7 =>
    by_cases clear : flag = 0 <;> simp [encodeResolution, written, clear]

/-- A change of the resolution rewrites the front that is copied. -/
theorem written_front {i : Nat} (behind : 7 ≤ i) : written xres yres refresh flag i = none := by
  obtain ⟨more, rfl⟩ : ∃ more, i = more + 7 := ⟨i - 7, by omega⟩
  rfl

/-- Storing a changed copy changes the sector: only the copy of what is not rewritten counts. -/
theorem copied_encodeResolution
    (agree : ∀ i (inside : i < 512), i < vendorSectorLen.toNat →
      written xres yres refresh flag i = none → data[i] = sector[i]) :
    copied vendorSectorLen (encodeResolution xres yres refresh flag data) sector =
      encodeResolution xres yres refresh flag sector := by
  apply Vector.ext
  intro i inside
  rw [copied_get _ _ _ inside, encodeResolution_get inside, encodeResolution_get inside]
  cases byte : written xres yres refresh flag i with
  | some byte =>
    have front : i < vendorSectorLen.toNat := by
      by_contra behind
      have late : 7 ≤ i := Nat.le_trans (by decide) (Nat.not_lt.mp behind)
      rw [written_front late] at byte
      contradiction
    rw [if_pos front]
    rfl
  | none =>
    simp only [Option.getD_none]
    split
    · rename_i front
      exact agree i inside front byte
    · rfl

/-- A copy of the front agrees with the sector. -/
theorem copied_agree {i : Nat} (inside : i < 512) (front : i < vendorSectorLen.toNat) :
    (copied vendorSectorLen sector data)[i] = sector[i] := by
  rw [copied_get _ _ _ inside, if_pos front]

/-- The low sixteen bits of a number that fits them are the number. -/
theorem toUInt16_value {value : Int32} (nonneg : 0 ≤ value) (small : value ≤ 65535) :
    (value.toUInt32.toUInt16.toNat : Int) = value.toInt := by
  have below : value.toInt ≤ 65535 := Int32.le_iff_toInt_le.mp small
  have above : 0 ≤ value.toInt := Int32.le_iff_toInt_le.mp nonneg
  have clamped : (value.toNatClampNeg : Int) = value.toInt := Int.toNat_of_nonneg above
  rw [UInt32.toNat_toUInt16, Int32.toNat_toUInt32_of_le nonneg]
  omega

/-- The two bytes of a number read back as the number. -/
theorem littleEndian_bytes {value : Int32} (nonneg : 0 ≤ value) (small : value ≤ 65535) :
    littleEndian value.toUInt32.toUInt16.toUInt8 (value.toUInt32.toUInt16 >>> 8).toUInt8 =
      value.toInt := by
  have whole := toUInt16_value nonneg small
  have word := value.toUInt32.toUInt16.toNat_lt
  have high : (value.toUInt32.toUInt16 >>> 8).toNat = value.toUInt32.toUInt16.toNat / 256 := by
    rw [UInt16.toNat_shiftRight, Nat.shiftRight_eq_div_pow]
    rfl
  rw [littleEndian, UInt16.toNat_toUInt8, UInt16.toNat_toUInt8, high]
  omega

/-- Two bytes are determined by the number they make. -/
theorem littleEndian_injective {low high low' high' : UInt8}
    (same : littleEndian low high = littleEndian low' high') : low = low' ∧ high = high' := by
  have bound := low.toNat_lt
  have bound' := low'.toNat_lt
  unfold littleEndian at same
  exact ⟨UInt8.toNat_inj.mp (by omega), UInt8.toNat_inj.mp (by omega)⟩

/-- The low byte of a rate is the rate. -/
theorem toUInt8_value {value : Int32} (nonneg : 0 ≤ value) (small : value ≤ 255) :
    (value.toUInt32.toUInt8.toNat : Int) = value.toInt := by
  have below : value.toInt ≤ 255 := Int32.le_iff_toInt_le.mp small
  have above : 0 ≤ value.toInt := Int32.le_iff_toInt_le.mp nonneg
  have clamped : (value.toNatClampNeg : Int) = value.toInt := Int.toNat_of_nonneg above
  rw [UInt32.toNat_toUInt8, Int32.toNat_toUInt32_of_le nonneg]
  omega

/-- A changed sector holds the setting. -/
theorem holds_encodeResolution (accepted : Accepted xres yres refresh flag) :
    Holds xres yres refresh flag (encodeResolution xres yres refresh flag sector) := by
  obtain ⟨⟨refresh_low, refresh_high⟩, _, ⟨xres_low, xres_high⟩, yres_low, yres_high⟩ := accepted
  constructor
  · intro clear
    change (encodeResolution xres yres refresh flag sector)[1] = 0
    rw [encodeResolution_get (by decide), clear]
    rfl
  · intro set
    have shown : flag ≠ 0 := by
      rw [set]
      decide
    generalize changed : encodeResolution xres yres refresh flag sector = after
    change after[1] = 0xAC ∧ littleEndian after[2] after[3] = xres.toInt ∧
      littleEndian after[4] after[5] = yres.toInt ∧ (after[6].toNat : Int) = refresh.toInt
    subst changed
    simp only [encodeResolution_get, written, shown, ne_eq, not_false_eq_true, ↓reduceIte,
      Option.getD_some, true_and]
    refine ⟨littleEndian_bytes ?_ ?_, littleEndian_bytes ?_ ?_, toUInt8_value ?_ ?_⟩
    · exact Int32.le_trans (by decide) xres_low
    · exact Int32.le_trans xres_high (by decide)
    · exact Int32.le_trans (by decide) yres_low
    · exact Int32.le_trans yres_high (by decide)
    · exact refresh_low
    · exact Int32.le_trans refresh_high (by decide)

/-- A sector is unchanged exactly when it holds the setting already. -/
theorem encodeResolution_eq_self_iff (accepted : Accepted xres yres refresh flag) :
    encodeResolution xres yres refresh flag sector = sector ↔ Holds xres yres refresh flag sector := by
  have holds := @holds_encodeResolution xres yres refresh flag sector accepted
  constructor
  · intro same
    rwa [same] at holds
  · intro already
    apply Vector.ext
    intro i inside
    rcases accepted.2.1 with clear | set
    · -- only the flag is rewritten
      rw [encodeResolution_get inside]
      match i with
      | 1 =>
        have cleared : sector[1] = 0 := already.1 clear
        rw [cleared, clear]
        rfl
      | 0 | 2 | 3 | 4 | 5 | 6 | i + 7 => simp [written, clear]
    · obtain ⟨flagged, width, height, rate⟩ := already.2 set
      obtain ⟨flagged', width', height', rate'⟩ := holds.2 set
      have x := littleEndian_injective (width'.trans width.symm)
      have y := littleEndian_injective (height'.trans height.symm)
      have r := UInt8.toNat_inj.mp (Int.ofNat.inj (rate'.trans rate.symm))
      match i with
      | 1 => exact flagged'.trans flagged.symm
      | 2 => exact x.1
      | 3 => exact x.2
      | 4 => exact y.1
      | 5 => exact y.2
      | 6 => exact r
      | 0 | i + 7 => rw [encodeResolution_get inside]; rfl

/-- The bytes at other positions are kept. -/
theorem encodeResolution_kept {i : Nat} (inside : i < 512) (choice : flag = 0 ∨ flag = 1)
    (other : ¬Rewritten flag i) : (encodeResolution xres yres refresh flag sector)[i] = sector[i] := by
  rw [encodeResolution_get inside]
  rw [Rewritten, not_or] at other
  match i with
  | 1 => exact absurd rfl other.1
  | 0 | i + 7 => rfl
  | 2 | 3 | 4 | 5 | 6 =>
    have clear : flag = 0 := choice.resolve_right fun set => other.2 ⟨set, by decide, by decide⟩
    simp [written, clear]

end Bytes

/-! ## One call -/

/-- A store of the sector succeeded. -/
def StoreDone (steps : List (Sector × Event os)) : Prop :=
  ∃ state sysData answer,
    (state, ⟨.ioctl .rknandStoreVendorSector0 sysData, some answer⟩) ∈ steps

/-- A read of the sector failed. -/
def ReadFailed (steps : List (Sector × Event os)) : Prop :=
  ∃ state sysData, (state, ⟨.ioctl .rknandGetVendorSector0 sysData, none⟩) ∈ steps

variable {xres yres refresh flag : Int32}

/-- The four checks of the arguments. -/
theorem accepted_iff : Accepted xres yres refresh flag ↔
    ¬(refresh < 0 ∨ refresh > 100) ∧ ¬(flag < 0 ∨ flag > 1) ∧ ¬(xres < 800 ∨ xres > 2560) ∧
      ¬(yres < 600 ∨ yres > 1600) := by
  have bit : flag = 0 ∨ flag = 1 ↔ 0 ≤ flag ∧ flag ≤ 1 := by
    rw [← Int32.toInt_inj, ← Int32.toInt_inj, Int32.le_iff_toInt_le, Int32.le_iff_toInt_le]
    change flag.toInt = 0 ∨ flag.toInt = 1 ↔ 0 ≤ flag.toInt ∧ flag.toInt ≤ 1
    omega
  simp only [Accepted, bit, not_or, Int32.not_lt, gt_iff_lt]

/-- Arguments out of range are turned down before anything else. -/
theorem setDeviceResolution_refused (refused : ¬Accepted xres yres refresh flag) :
    setDeviceResolution xres yres refresh flag = .done false := by
  rw [accepted_iff] at refused
  unfold setDeviceResolution
  split
  · rfl
  · split
    · rfl
    · split
      · rfl
      · split
        · rfl
        · rename_i rate bit width height
          exact absurd ⟨rate, bit, width, height⟩ refused

/-- The part of a call that reaches the device. -/
theorem setDeviceResolution_accepted (accepted : Accepted xres yres refresh flag) :
    setDeviceResolution xres yres refresh flag = .ask (.open rknandDevice) fun opened =>
      if opened then .ask .uninitialized fun data =>
        .ask (.ioctl .rknandGetVendorSector0 (withHeader data)) fun
          | none => .ask .close fun _ => .done false
          | some sysData =>
            .ask (.ioctl .rknandStoreVendorSector0
              (withHeader (encodeResolution xres yres refresh flag sysData.data))) fun
              | none => .ask .close fun _ => .done false
              | some sysData =>
                .ask (.ioctl .rknandGetVendorSector0 (withHeader sysData.data)) fun
                  | none => .ask .close fun _ => .done false
                  | some _ => .ask .close fun _ => .done true
      else .done false := by
  obtain ⟨rate, bit, width, height⟩ := accepted_iff.mp accepted
  rw [setDeviceResolution, if_neg rate, if_neg bit, if_neg width, if_neg height]
  refine congrArg (Program.ask _) (funext fun opened => ?_)
  cases opened with
  | false => rfl
  | true =>
    refine congrArg (Program.ask _) (funext fun data => ?_)
    refine congrArg (Program.ask _) (funext fun answer => ?_)
    cases answer with
    | none => rfl
    | some sysData =>
      refine congrArg (Program.ask _) (funext fun answer => ?_)
      cases answer with
      | none => rfl
      | some sysData =>
        refine congrArg (Program.ask _) (funext fun answer => ?_)
        cases answer <;> rfl

/-- A call of which the store succeeds changes the sector, and reports it unless the last read
fails; every other call leaves the sector. -/
theorem setDeviceResolution_within (accepted : Accepted xres yres refresh flag) (sector : Sector) :
    (setDeviceResolution xres yres refresh flag).Within vendorSector sector
      fun steps stored final =>
        (¬StoreDone steps ∧ stored = false ∧ final = sector) ∨
        (StoreDone steps ∧ (stored = false ↔ ReadFailed steps) ∧
          final = encodeResolution xres yres refresh flag sector) := by
  rw [setDeviceResolution_accepted accepted]
  intro opened afterOpen opens
  obtain rfl : afterOpen = sector := opens
  cases opened with
  | false => exact .inl ⟨by simp [StoreDone], rfl, rfl⟩
  | true =>
    intro data afterData fills answer afterRead reads
    obtain rfl : afterData = afterOpen := fills
    obtain ⟨rfl, front⟩ := reads
    cases answer with
    | none =>
      intro _ afterClose closes
      exact .inl ⟨by simp [StoreDone], rfl, closes⟩
    | some sysData =>
      intro answer afterStore stores
      cases answer with
      | none =>
        obtain rfl : afterStore = afterRead := stores
        intro _ afterClose closes
        exact .inl ⟨by simp [StoreDone], rfl, closes⟩
      | some sysData' =>
        have changed : afterStore = encodeResolution xres yres refresh flag afterRead := by
          have moved : afterStore = copied vendorSectorLen
            (encodeResolution xres yres refresh flag sysData.data) afterRead := stores
          rw [moved]
          apply copied_encodeResolution
          intro i inside ahead _
          rw [front sysData rfl]
          exact copied_agree inside ahead
        intro answer afterCheck checks
        obtain rfl : afterCheck = afterStore := checks.1
        cases answer with
        | none =>
          intro _ afterClose closes
          exact .inr ⟨by simp [StoreDone], by simp [ReadFailed],
            (show afterClose = afterCheck from closes).trans changed⟩
        | some sysData'' =>
          intro _ afterClose closes
          exact .inr ⟨by simp [StoreDone], by simp [ReadFailed],
            (show afterClose = afterCheck from closes).trans changed⟩

/-- A stored resolution decodes back and nothing else moves; arguments out of range never reach
the device. -/
theorem resolution_decodes (xres yres refresh flag : Int32) (sector : Sector) :
    (setDeviceResolution xres yres refresh flag).Within vendorSector sector
      fun steps stored final =>
        (stored = true → Accepted xres yres refresh flag ∧ Holds xres yres refresh flag final ∧
          ∀ i (inside : i < 512), ¬Rewritten flag i → final[i] = sector[i]) ∧
        (¬Accepted xres yres refresh flag → steps = [] ∧ stored = false ∧ final = sector) := by
  by_cases accepted : Accepted xres yres refresh flag
  · refine (setDeviceResolution_within accepted sector).mono fun steps stored final outcome => ?_
    refine ⟨fun success => ⟨accepted, ?_⟩, fun refused => absurd accepted refused⟩
    rcases outcome with ⟨_, failed, _⟩ | ⟨_, _, rfl⟩
    · exact absurd (failed.symm.trans success) Bool.false_ne_true
    · exact ⟨holds_encodeResolution accepted, fun i inside other =>
        encodeResolution_kept inside accepted.2.1 other⟩
  · rw [setDeviceResolution_refused accepted]
    exact ⟨fun success => absurd success Bool.false_ne_true, fun _ => ⟨rfl, rfl, rfl⟩⟩

/-- A call that fails leaves the sector, and one that succeeds stores the setting. -/
def AtomicOnFailure (xres yres refresh flag : Int32) (sector : Sector) (stored : Bool)
    (final : Sector) : Prop :=
  (stored = false → final = sector) ∧ (stored = true → Holds xres yres refresh flag final)

/-- A call is atomic on failure if and only if it is not one whose store succeeded, changed the
sector and was followed by a read that failed. -/
theorem atomicOnFailure_iff (xres yres refresh flag : Int32) (sector : Sector) :
    (setDeviceResolution xres yres refresh flag).Within vendorSector sector
      fun steps stored final =>
        AtomicOnFailure xres yres refresh flag sector stored final ↔
          ¬(StoreDone steps ∧ ReadFailed steps ∧ ¬Holds xres yres refresh flag sector) := by
  by_cases accepted : Accepted xres yres refresh flag
  · refine (setDeviceResolution_within accepted sector).mono fun steps stored final outcome => ?_
    rcases outcome with ⟨unstored, rfl, rfl⟩ | ⟨done, failed, rfl⟩
    · exact iff_of_true ⟨fun _ => rfl, fun success => absurd success Bool.false_ne_true⟩
        fun defect => unstored defect.1
    · have unchanged := @encodeResolution_eq_self_iff _ _ _ _ sector accepted
      have holds := @holds_encodeResolution _ _ _ _ sector accepted
      constructor
      · rintro ⟨kept, _⟩ ⟨_, read, changed⟩
        exact changed (unchanged.mp (kept (failed.mpr read)))
      · intro sound
        refine ⟨fun failure => ?_, fun _ => holds⟩
        by_contra changed
        exact sound ⟨done, failed.mp failure, fun already => changed (unchanged.mpr already)⟩
  · rw [setDeviceResolution_refused accepted]
    exact iff_of_true ⟨fun _ => rfl, fun success => absurd success Bool.false_ne_true⟩
      (by simp [StoreDone])

/-- Setting 800x600 in an empty sector, the read behind the store failing. -/
theorem not_atomicOnFailure :
    ¬∀ (xres yres refresh flag : Int32) (sector : Sector),
      (setDeviceResolution xres yres refresh flag).Within vendorSector sector
        fun _ stored final => AtomicOnFailure xres yres refresh flag sector stored final := by
  intro atomic
  have accepted : Accepted 800 600 60 1 := by unfold Accepted; decide
  have call := atomic 800 600 60 1 (.replicate 512 0)
  rw [setDeviceResolution_accepted accepted] at call
  let read := withHeader (copied vendorSectorLen (.replicate 512 0) (.replicate 512 0))
  have kept := call true _ rfl (.replicate 512 0) _ rfl (some read) _
    ⟨rfl, fun answer same => by cases same; rfl⟩ (some read) _ rfl none _
    ⟨rfl, fun answer same => by cases same⟩ () _ rfl
  have flag := congrArg (fun sector : Sector => sector[1]) (kept.1 rfl)
  simp only [Option.isSome_some, ↓reduceIte, withHeader, copied_get, encodeResolution_get,
    Vector.getElem_replicate] at flag
  exact absurd flag (by decide)

end Rjcore
