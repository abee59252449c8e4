import Rjcore.Verif.Resolutions

/-!
# No mixed resolutions

Calls of `setDeviceResolution` that overlap may undo each other, and any request of the driver
may fail at any moment. Even so the size and the rate in the sector are always those of one
call or those from before all calls, never a mixture, and the bytes that no resolution uses are
never touched. What makes it so is that every copy a call works on has the same property.
-/

namespace Rjcore

open Interaction RjcoreService

/-- The sector was stored by the thread. -/
def StoredIn {ι : Type} (log : List (ι × Event os)) (thread : ι) : Prop :=
  ∃ sysData answer, (thread, ⟨.ioctl .rknandStoreVendorSector0 sysData, some answer⟩) ∈ log

/-- A byte of a sector. -/
def byteAt (sector : Sector) (i : Nat) : UInt8 := sector.toArray.getD i 0

/-- The width in a sector. -/
def widthIn (sector : Sector) : Int := littleEndian (byteAt sector 2) (byteAt sector 3)

/-- The height. -/
def heightIn (sector : Sector) : Int := littleEndian (byteAt sector 4) (byteAt sector 5)

/-- The rate. -/
def rateIn (sector : Sector) : Int := (byteAt sector 6).toNat

/-- The size and the rate of a setting stand in the sector. -/
def HasResolution (setting : Setting) (sector : Sector) : Prop :=
  widthIn sector = setting.xres.toInt ∧ heightIn sector = setting.yres.toInt ∧
    rateIn sector = setting.refresh.toInt

/-- Inside the sector it is the byte of the index. -/
theorem byteAt_eq (sector : Sector) {i : Nat} (inside : i < 512) :
    byteAt sector i = sector[i] := by
  rw [byteAt, Array.getD_eq_getD_getElem?, Array.getElem?_eq_getElem (by simpa using inside)]
  rfl

/-- A sector with a set resolution has its size and its rate. -/
theorem hasResolution_of_holds {xres yres refresh : Int32} {sector : Sector}
    (holds : Holds xres yres refresh 1 sector) :
    widthIn sector = xres.toInt ∧ heightIn sector = yres.toInt ∧ rateIn sector = refresh.toInt := by
  obtain ⟨_, width, height, rate⟩ := holds.2 rfl
  simp only [widthIn, heightIn, rateIn, byteAt_eq sector (show 2 < 512 by decide),
    byteAt_eq sector (show 3 < 512 by decide), byteAt_eq sector (show 4 < 512 by decide),
    byteAt_eq sector (show 5 < 512 by decide), byteAt_eq sector (show 6 < 512 by decide)]
  exact ⟨width, height, rate⟩

/-- Sectors that agree on the bytes of the resolution have the same one. -/
theorem HasResolution.of_agree {setting : Setting} {sector data : Sector}
    (has : HasResolution setting sector)
    (agree : ∀ i (inside : i < 512), 2 ≤ i → i ≤ 6 → data[i] = sector[i]) :
    HasResolution setting data := by
  have byte : ∀ i, 2 ≤ i → i ≤ 6 → byteAt data i = byteAt sector i := by
    intro i low high
    have inside : i < 512 := Nat.lt_of_le_of_lt high (by decide)
    rw [byteAt_eq data inside, byteAt_eq sector inside]
    exact agree i inside low high
  rw [HasResolution, widthIn, heightIn, rateIn, byte 2 (by decide) (by decide),
    byte 3 (by decide) (by decide), byte 4 (by decide) (by decide),
    byte 5 (by decide) (by decide), byte 6 (by decide) (by decide)]
  exact has

section Interleaved

variable {ι : Type} {settings : ι → Setting} {start sector data : Sector}
  {log : List (ι × Event os)}

/-- The size and the rate are those from before, or those of one call that has stored them. -/
def WholeResolution (settings : ι → Setting) (start : Sector) (log : List (ι × Event os))
    (sector : Sector) : Prop :=
  (∀ i (inside : i < 512), 2 ≤ i → i ≤ 6 → sector[i] = start[i]) ∨
    ∃ thread, StoredIn log thread ∧ (settings thread).flag = 1 ∧
      HasResolution (settings thread) sector

/-- The bytes no resolution uses are those from before. -/
def Untouched (start sector : Sector) : Prop :=
  ∀ i (inside : i < 512), i = 0 ∨ 7 ≤ i → sector[i] = start[i]

/-- Sectors that agree on the size and the rate are unmixed alike. -/
theorem WholeResolution.of_agree (unmixed : WholeResolution settings start log sector)
    (agree : ∀ i (inside : i < 512), 2 ≤ i → i ≤ 6 → data[i] = sector[i]) :
    WholeResolution settings start log data := by
  rcases unmixed with before | ⟨thread, stored, set, holds⟩
  · exact .inl fun i inside low high => (agree i inside low high).trans (before i inside low high)
  · exact .inr ⟨thread, stored, set, holds.of_agree agree⟩

/-- More steps keep what was stored. -/
theorem WholeResolution.later (unmixed : WholeResolution settings start log sector) (entry : ι × Event os) :
    WholeResolution settings start (log ++ [entry]) sector :=
  unmixed.imp id fun ⟨thread, ⟨sysData, answer, member⟩, holds⟩ =>
    ⟨thread, ⟨sysData, answer, List.mem_append_left _ member⟩, holds⟩

/-- Where the calls stand, the sector and every copy of it are unmixed. -/
structure Intact (settings : ι → Setting) (start : Sector) (log : List (ι × Event os))
    (sector : Sector) (phase : ι → ResolutionPhase) : Prop where
  untouched : Untouched start sector
  unmixed : WholeResolution settings start log sector
  /-- The front of a copy, which the driver has filled, has the same bytes. -/
  copy_untouched : ∀ thread data, phase thread = .copied data → ∀ i (inside : i < 512),
    i < vendorSectorLen.toNat → i = 0 ∨ 7 ≤ i → data[i] = start[i]
  copy_unmixed : ∀ thread data, phase thread = .copied data → WholeResolution settings start log data

/-- What a step of a call may do to its phase and to the sector, whatever fails. -/
inductive Request (setting : Setting) :
    Event os → ResolutionPhase × Sector → ResolutionPhase × Sector → Prop
  | other {event : Event os} {phase next : ResolutionPhase} {sector : Sector}
      (kept : ∀ data, next = .copied data → phase = .copied data) :
      Request setting event (phase, sector) (next, sector)
  | read {event : Event os} {sector data : Sector}
      (front : ∀ i (inside : i < 512), i < vendorSectorLen.toNat → data[i] = sector[i]) :
      Request setting event (.reading, sector) (.copied data, sector)
  | store {sysData answer : RknandSysStorage} {data sector : Sector} :
      Request setting ⟨.ioctl .rknandStoreVendorSector0 sysData, some answer⟩
        (.copied data, sector)
        (.stored, Rjcore.copied vendorSectorLen (setting.apply data) sector)

/-- Every step is one of these. -/
theorem request_of_accepted {setting : Setting} {phase next : ResolutionPhase}
    {sector after : Sector} {op : Op} {answer : op.Answer}
    (accepted : resolutionMonitor setting phase op answer = some next)
    (moves : vendorSector sector op answer after) :
    Request setting ⟨op, answer⟩ (phase, sector) (next, after) := by
  cases op with
  | ioctl request sysData =>
    cases answer with
    | none =>
      have still : after = sector := by
        cases request with
        | rknandGetVendorSector0 => exact moves.1
        | rknandStoreVendorSector0 => exact moves
      subst still
      cases request <;> cases phase <;> cases accepted <;> exact .other nofun
    | some read =>
      cases request with
      | rknandGetVendorSector0 =>
        obtain ⟨rfl, front⟩ := moves
        cases phase with
        | reading =>
          change (if sysData.len = vendorSectorLen then some (ResolutionPhase.copied read.data)
            else none) = some next at accepted
          split at accepted
          · rename_i whole
            cases accepted
            refine .read fun i inside ahead => ?_
            rw [front read rfl, whole]
            exact copied_agree inside ahead
          · contradiction
        | stored =>
          cases accepted
          exact .other nofun
        | copied data => cases accepted
        | failed => cases accepted
      | rknandStoreVendorSector0 =>
        cases phase with
        | copied data =>
          change (if sysData = withHeader (setting.apply data) then some ResolutionPhase.stored
            else none) = some next at accepted
          split at accepted
          · rename_i own
            cases accepted
            subst own
            rw [show after = Rjcore.copied vendorSectorLen (setting.apply data) sector from moves]
            exact .store
          · contradiction
        | reading => cases accepted
        | stored => cases accepted
        | failed => cases accepted
  | «open» path =>
    obtain rfl : after = sector := moves
    cases answer with
    | false => cases phase <;> cases accepted <;> exact .other nofun
    | true => cases phase <;> cases accepted <;> exact .other fun _ same => same
  | _ =>
    obtain rfl : after = sector := moves
    cases phase <;> cases accepted <;> exact .other fun _ same => same

variable [DecidableEq ι] {phase : ι → ResolutionPhase} {thread : ι}

namespace Intact

/-- A step that gives no copy and leaves the sector keeps the bytes. -/
theorem other (intact : Intact settings start log sector phase) {next : ResolutionPhase}
    (kept : ∀ data, next = .copied data → phase thread = .copied data) (entry : ι × Event os) :
    Intact settings start (log ++ [entry]) sector (Function.update phase thread next) := by
  have before : ∀ other data, Function.update phase thread next other = .copied data →
      phase other = .copied data := by
    intro other data held
    by_cases same : other = thread
    · subst same
      rw [Function.update_self] at held
      exact kept data held
    · rwa [Function.update_of_ne same] at held
  exact ⟨intact.untouched, intact.unmixed.later entry,
    fun other data held => intact.copy_untouched other data (before other data held),
    fun other data held => (intact.copy_unmixed other data (before other data held)).later entry⟩

/-- A read gives a copy with the bytes of the sector. -/
theorem read (intact : Intact settings start log sector phase)
    (front : ∀ i (inside : i < 512), i < vendorSectorLen.toNat → data[i] = sector[i])
    (entry : ι × Event os) :
    Intact settings start (log ++ [entry]) sector
      (Function.update phase thread (.copied data)) := by
  refine ⟨intact.untouched, intact.unmixed.later entry, fun other own held => ?_,
    fun other own held => ?_⟩
  · by_cases same : other = thread
    · subst same
      rw [Function.update_self] at held
      cases held
      exact fun i inside ahead position =>
        (front i inside ahead).trans (intact.untouched i inside position)
    · rw [Function.update_of_ne same] at held
      exact intact.copy_untouched other own held
  · by_cases same : other = thread
    · subst same
      rw [Function.update_self] at held
      cases held
      refine (intact.unmixed.later entry).of_agree fun i inside low high => front i inside ?_
      exact Nat.lt_of_le_of_lt high (by decide)
    · rw [Function.update_of_ne same] at held
      exact (intact.copy_unmixed other own held).later entry

/-- A store leaves the bytes of a whole resolution. -/
theorem store (intact : Intact settings start log sector phase) (held : phase thread = .copied data)
    {sysData answer : RknandSysStorage} :
    Intact settings start
      (log ++ [(thread, ⟨.ioctl .rknandStoreVendorSector0 sysData, some answer⟩)])
      (copied vendorSectorLen ((settings thread).apply data) sector)
      (Function.update phase thread .stored) := by
  have outer : ∀ i (inside : i < 512), i = 0 ∨ 7 ≤ i →
      (copied vendorSectorLen ((settings thread).apply data) sector)[i] = start[i] := by
    intro i inside position
    rw [copied_get _ _ _ inside]
    split
    · rename_i ahead
      rw [Setting.apply, encodeResolution_get inside, written_none position]
      exact intact.copy_untouched thread data held i inside ahead position
    · exact intact.untouched i inside position
  have inner : ∀ i (inside : i < 512), 2 ≤ i → i ≤ 6 →
      (copied vendorSectorLen ((settings thread).apply data) sector)[i] =
        ((settings thread).apply data)[i] := fun i inside _ high =>
    copied_agree inside (Nat.lt_of_le_of_lt high (by decide))
  have uncopied : ∀ own : Sector, ResolutionPhase.stored = .copied own →
      phase thread = .copied own := by
    intro own copy
    cases copy
  have settled := intact.other uncopied
    (thread, ⟨.ioctl .rknandStoreVendorSector0 sysData, some answer⟩)
  refine ⟨outer, ?_, settled.copy_untouched, settled.copy_unmixed⟩
  rcases (settings thread).accepted.2.1 with clear | set
  · -- the copy keeps its size and rate, which are those of a whole resolution
    refine ((intact.copy_unmixed thread data held).later _).of_agree fun i inside low high => ?_
    rw [inner i inside low high]
    refine encodeResolution_kept inside (settings thread).accepted.2.1 fun rewritten => ?_
    rcases rewritten with rfl | ⟨set, _⟩
    · exact absurd low (by decide)
    · exact absurd (clear.symm.trans set) (by decide)
  · have holds := @holds_encodeResolution _ _ _ _ data (settings thread).accepted
    rw [set] at holds
    have has : HasResolution (settings thread) ((settings thread).apply data) := by
      rw [Setting.apply, set]
      exact hasResolution_of_holds holds
    exact .inr ⟨thread, ⟨sysData, answer, List.mem_append_right _ (List.mem_singleton.mpr rfl)⟩,
      set, has.of_agree inner⟩

end Intact

/-- Whatever the calls do and whatever fails, the sector stays intact. -/
theorem intact_of_shadow {config : Sector × (ι → ResolutionPhase)}
    (shadow : Shadow vendorSector (fun thread => resolutionMonitor (settings thread))
      (start, fun _ => .reading) log config) :
    Intact settings start log config.1 config.2 := by
  induction shadow with
  | start => exact ⟨fun _ _ _ => rfl, .inl fun _ _ _ _ => rfl, nofun, nofun⟩
  | @step log sector after phase next thread event earlier moves accepted ih =>
    obtain ⟨op, answer⟩ := event
    generalize before : phase thread = current at accepted
    have request := request_of_accepted accepted moves
    cases request with
    | other kept => exact ih.other (fun data copy => before.trans (kept data copy)) _
    | read front => exact ih.read front _
    | store => exact ih.store before

/-- In every interleaving of any number of calls, whatever requests fail and whichever calls
undo each other, the size and the rate in the sector are at every moment those from before all
calls or those of one call that has stored them, and no byte outside the resolution changes. -/
theorem resolution_never_mixed (settings : ι → Setting) (start : Sector)
    {config : Sector × (ι → Program os Bool)}
    (run : Reaches vendorSector (start, fun thread => (settings thread).call) log config) :
    Untouched start config.1 ∧ WholeResolution settings start log config.1 := by
  obtain ⟨phase, shadow, _⟩ := run.shadow fun thread => call_obeys (settings thread)
  have intact := intact_of_shadow shadow
  exact ⟨intact.untouched, intact.unmixed⟩

end Interleaved

/-- One call clears the setting with what it read before another call set 800x600. -/
theorem resolution_never_mixed_overlap : ∃ log config,
    Reaches vendorSector (.replicate 512 0, fun thread => (setAndClear thread).call) log config ∧
      config.2 false = .done true ∧ config.2 true = .done true ∧
      Untouched (.replicate 512 0) config.1 ∧
      WholeResolution setAndClear (.replicate 512 0) log config.1 := by
  obtain ⟨log, config, played, first, second⟩ : ∃ log config,
      play succeeding [false, false, false, true, true, true, true, true, true, false, false, false]
        [] ((.replicate 512 0 : Sector), fun thread => (setAndClear thread).call) =
          some (log, config) ∧
        config.2 false = .done true ∧ config.2 true = .done true := ⟨_, _, rfl, rfl, rfl⟩
  have run : Reaches vendorSector (.replicate 512 0, fun thread => (setAndClear thread).call)
      log config := play_reaches (fun sector op => (succeeding_allowed sector op).1) _ .start played
  exact ⟨log, config, run, first, second, resolution_never_mixed setAndClear _ run⟩

end Rjcore
