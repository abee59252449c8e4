import Rjcore.Interaction.Interleaving
import Rjcore.Verif.VendorSector

/-!
# Concurrent resolution changes

Every call of `setDeviceResolution` reads the sector, changes its copy and stores it, with no
lock around the three. A store that sets the flag rewrites everything that any call rewrites,
so it takes effect as a whole. A store that clears the flag writes the resolution back as it
was read; it takes effect as a whole when no other call has changed the resolution since. The
stores then are the order in which the calls could have run one after another.
-/

namespace Rjcore

open Interaction RjcoreService

/-- Accepted arguments of `setDeviceResolution`. -/
structure Setting where
  xres : Int32
  yres : Int32
  refresh : Int32
  flag : Int32
  accepted : Accepted xres yres refresh flag

namespace Setting

/-- The call with these arguments. -/
def call (setting : Setting) : Program os Bool :=
  setDeviceResolution setting.xres setting.yres setting.refresh setting.flag

/-- What the call does to the sector by itself. -/
def apply (setting : Setting) (sector : Sector) : Sector :=
  encodeResolution setting.xres setting.yres setting.refresh setting.flag sector

end Setting

/-- The answers of a device that opens and carries out every request. -/
def Succeeds : (op : Op) → op.Answer → Prop
  | .open _, opened => opened = true
  | .ioctl _ _, answer => answer.isSome = true
  | _, _ => True

/-- The driver without failures. -/
def successful : World os Sector := fun sector op answer after =>
  vendorSector sector op answer after ∧ Succeeds op answer

/-- A store that clears the flag finds the resolution as it was read. -/
def Undisturbed (sector : Sector) : Op → Prop
  | .ioctl .rknandStoreVendorSector0 sysData =>
    flagByte sysData.data = 0 → ∀ i (inside : i < 512), 2 ≤ i → i ≤ 6 → sysData.data[i] = sector[i]
  | _ => True

/-- The driver without failures, while no store is disturbed. -/
def undisturbed : World os Sector := fun sector op answer after =>
  successful sector op answer after ∧ Undisturbed sector op

/-- The calls were run one after another in this order. -/
def OneByOne {ι : Type} (settings : ι → Setting) (order : List ι) (start final : Sector) : Prop :=
  ∃ executions, executions.map Execution.program = order.map (fun thread => (settings thread).call) ∧
    InSequence successful start executions final

/-- Without failures a call changes the sector. -/
theorem call_within (setting : Setting) (sector : Sector) :
    setting.call.Within successful sector fun _ stored final =>
      stored = true ∧ final = setting.apply sector := by
  rw [Setting.call, setDeviceResolution_accepted setting.accepted]
  rintro opened afterOpen ⟨opens, rfl⟩
  obtain rfl : afterOpen = sector := opens
  rintro data afterData ⟨fills, _⟩ answer afterRead ⟨⟨reads, front⟩, answered⟩
  obtain rfl : afterData = afterOpen := fills
  obtain rfl : afterRead = afterData := reads
  obtain ⟨sysData, rfl⟩ := Option.isSome_iff_exists.mp answered
  rintro answer afterStore ⟨stores, answered⟩
  obtain ⟨sysData', rfl⟩ := Option.isSome_iff_exists.mp answered
  have changed : afterStore = setting.apply afterRead := by
    have moved : afterStore = copied vendorSectorLen (setting.apply sysData.data) afterRead := stores
    rw [moved]
    apply copied_encodeResolution
    intro i inside ahead _
    rw [front sysData rfl]
    exact copied_agree inside ahead
  rintro answer afterCheck ⟨⟨rfl, _⟩, answered⟩
  obtain ⟨sysData'', rfl⟩ := Option.isSome_iff_exists.mp answered
  rintro _ afterClose ⟨closes, _⟩
  exact ⟨rfl, (show afterClose = afterCheck from closes).trans changed⟩

/-- An execution of a call without failures changes the sector. -/
theorem call_changes {execution : Execution os Bool Sector} {setting : Setting}
    (valid : execution.Valid successful) (same : execution.program = setting.call) :
    execution.after = setting.apply execution.before := by
  have call := call_within setting execution.before
  rw [← same] at call
  exact (valid.within call).2

/-- The answers of the driver without failures. -/
def succeeding (sector : Sector) : (op : Op) → op.Answer × Sector
  | .ioctl .rknandGetVendorSector0 sysData =>
    (some { sysData with data := copied sysData.len sector sysData.data }, sector)
  | .ioctl .rknandStoreVendorSector0 sysData =>
    (some sysData, copied sysData.len sysData.data sector)
  | op => (op.uneventful, sector)

/-- The driver without failures gives these answers. -/
theorem succeeding_allowed (sector : Sector) (op : Op) :
    successful sector op (succeeding sector op).1 (succeeding sector op).2 := by
  cases op with
  | ioctl request sysData =>
    cases request with
    | rknandGetVendorSector0 => exact ⟨⟨rfl, fun read same => by cases same; rfl⟩, rfl⟩
    | rknandStoreVendorSector0 => exact ⟨rfl, rfl⟩
  | «open» path => exact ⟨rfl, rfl⟩
  | _ => exact ⟨rfl, trivial⟩

/-- Calls run one after another change the sector in their order. -/
theorem oneByOne_iff {ι : Type} (settings : ι → Setting) {order : List ι} {start final : Sector} :
    OneByOne settings order start final ↔
      final = order.foldl (fun sector thread => (settings thread).apply sector) start := by
  induction order generalizing start with
  | nil =>
    constructor
    · rintro ⟨executions, programs, sequence⟩
      obtain rfl := List.map_eq_nil_iff.mp programs
      cases sequence
      rfl
    · rintro rfl
      exact ⟨[], rfl, .nil _⟩
  | cons thread order ih =>
    rw [List.foldl_cons, ← ih]
    constructor
    · rintro ⟨executions, programs, sequence⟩
      obtain ⟨execution, rest, rfl, first, others⟩ := List.map_eq_cons_iff.mp programs
      cases sequence with
      | cons valid onward =>
        rw [← call_changes valid first]
        exact ⟨rest, others, onward⟩
    · rintro ⟨rest, programs, sequence⟩
      obtain ⟨valid, same, before⟩ :=
        Execution.respond_valid succeeding_allowed start (settings thread).call
      have changed := call_changes valid same
      rw [before] at changed
      rw [← changed] at sequence
      have whole := InSequence.cons valid sequence
      rw [before] at whole
      refine ⟨_ :: rest, ?_, whole⟩
      rw [List.map_cons, List.map_cons, same, programs]

/-! ## Interleaved calls -/

/-- Where a call stands. -/
inductive ResolutionPhase
  | reading
  /-- The sector was read into the structure. -/
  | copied (data : Sector)
  | stored
  | failed

/-- The order of the requests of a call. -/
def resolutionMonitor (setting : Setting) : Monitor os ResolutionPhase
  | .reading, .ioctl .rknandGetVendorSector0 sysData, some read =>
    if sysData.len = vendorSectorLen then some (.copied read.data) else none
  | .copied data, .ioctl .rknandStoreVendorSector0 sysData, some _ =>
    if sysData = withHeader (setting.apply data) then some .stored else none
  | .stored, .ioctl .rknandGetVendorSector0 _, some _ => some .stored
  | _, .ioctl _ _, some _ => none
  | _, .ioctl _ _, none => some .failed
  | phase, .open _, opened => if opened then some phase else some .failed
  | phase, _, _ => some phase

/-- A call keeps to the order of its requests. -/
theorem call_obeys (setting : Setting) :
    setting.call.Obeys (resolutionMonitor setting) .reading fun phase _ =>
      phase = .stored ∨ phase = .failed := by
  rw [Setting.call, setDeviceResolution_accepted setting.accepted]
  intro opened
  cases opened with
  | false => exact ⟨.failed, rfl, .inr rfl⟩
  | true =>
    refine ⟨.reading, rfl, fun data => ⟨.reading, rfl, fun answer => ?_⟩⟩
    cases answer with
    | none => exact ⟨.failed, rfl, fun _ => ⟨.failed, rfl, .inr rfl⟩⟩
    | some sysData =>
      refine ⟨.copied sysData.data, rfl, fun answer => ?_⟩
      cases answer with
      | none => exact ⟨.failed, rfl, fun _ => ⟨.failed, rfl, .inr rfl⟩⟩
      | some sysData' =>
        refine ⟨.stored, if_pos rfl, fun answer => ?_⟩
        cases answer with
        | none => exact ⟨.failed, rfl, fun _ => ⟨.failed, rfl, .inr rfl⟩⟩
        | some sysData'' => exact ⟨.stored, rfl, fun _ => ⟨.stored, rfl, .inl rfl⟩⟩

/-- What one step of a call does to its phase and to the sector. -/
inductive Advance (setting : Setting) :
    ResolutionPhase × Sector → ResolutionPhase × Sector → Prop
  | stay {phase : ResolutionPhase} {sector : Sector} :
      Advance setting (phase, sector) (phase, sector)
  | read {sector data : Sector}
      (front : ∀ i (inside : i < 512), i < vendorSectorLen.toNat → data[i] = sector[i]) :
      Advance setting (.reading, sector) (.copied data, sector)
  | store {data sector : Sector}
      (fresh : setting.flag = 0 → ∀ i (inside : i < 512), 2 ≤ i → i ≤ 6 → data[i] = sector[i]) :
      Advance setting (.copied data, sector)
        (.stored, Rjcore.copied vendorSectorLen (setting.apply data) sector)

/-- Every step is one of these. -/
theorem advance_of_accepted {setting : Setting} {phase next : ResolutionPhase}
    {sector after : Sector} {op : Op} {answer : op.Answer}
    (accepted : resolutionMonitor setting phase op answer = some next)
    (moves : undisturbed sector op answer after) :
    Advance setting (phase, sector) (next, after) := by
  obtain ⟨⟨device, succeeds⟩, fresh⟩ := moves
  cases op with
  | ioctl request sysData =>
    obtain ⟨read, rfl⟩ := Option.isSome_iff_exists.mp succeeds
    cases request with
    | rknandGetVendorSector0 =>
      obtain ⟨rfl, front⟩ := device
      cases phase with
      | reading =>
        change (if sysData.len = vendorSectorLen then some (ResolutionPhase.copied read.data)
          else none) = some next at accepted
        split at accepted
        · rename_i whole
          cases accepted
          refine .read fun i inside ahead => ?_
          rw [front read rfl, whole]
          exact copied_agree inside ahead
        · contradiction
      | stored =>
        cases accepted
        exact .stay
      | copied data => cases accepted
      | failed => cases accepted
    | rknandStoreVendorSector0 =>
      cases phase with
      | copied data =>
        change (if sysData = withHeader (setting.apply data) then some ResolutionPhase.stored
          else none) = some next at accepted
        split at accepted
        · rename_i own
          cases accepted
          subst own
          have moved : after = Rjcore.copied vendorSectorLen (setting.apply data) sector := device
          rw [moved]
          refine .store fun clear i inside low high => ?_
          have unwritten : written setting.xres setting.yres setting.refresh setting.flag i =
              none := by
            rw [clear]
            match i, low, high with
            | 2, _, _ | 3, _, _ | 4, _, _ | 5, _, _ | 6, _, _ => rfl
          have cleared : (setting.apply data)[1] = 0 := by
            rw [Setting.apply, encodeResolution_get (by decide), clear]
            rfl
          have kept := fresh cleared i inside low high
          change (setting.apply data)[i] = sector[i] at kept
          rwa [Setting.apply, encodeResolution_get inside, unwritten] at kept
        · contradiction
      | reading => cases accepted
      | stored => cases accepted
      | failed => cases accepted
  | «open» path =>
    obtain rfl : answer = true := succeeds
    obtain rfl : after = sector := device
    cases phase <;> cases accepted <;> exact .stay
  | _ =>
    obtain rfl : after = sector := device
    cases phase <;> cases accepted <;> exact .stay

/-- A position that no change of the resolution rewrites. -/
theorem written_none {xres yres refresh flag : Int32} {i : Nat} (other : i = 0 ∨ 7 ≤ i) :
    written xres yres refresh flag i = none := by
  rcases other with rfl | behind
  · rfl
  · exact written_front behind

section Serial

variable {ι : Type} [DecidableEq ι] {settings : ι → Setting} {start : Sector} {order : List ι}
  {sector : Sector} {phase : ι → ResolutionPhase}

/-- The sector after the calls that have stored, in the order of their stores. The copies that
calls still hold agree with it wherever no call writes. -/
structure Serial (settings : ι → Setting) (start : Sector) (order : List ι) (sector : Sector)
    (phase : ι → ResolutionPhase) : Prop where
  nodup : order.Nodup
  /-- The calls in the order are those that have stored. -/
  stored : ∀ thread, thread ∈ order ↔ phase thread = .stored
  /-- No call has failed. -/
  sound : ∀ thread, phase thread ≠ .failed
  /-- The sector is what the calls in the order make of it. -/
  result : sector = order.foldl (fun sector thread => (settings thread).apply sector) start
  /-- A copy agrees with the sector where no call writes. -/
  copies : ∀ thread data, phase thread = .copied data → ∀ i (inside : i < 512),
    i < vendorSectorLen.toNat → i = 0 ∨ 7 ≤ i → data[i] = sector[i]

namespace Serial

/-- A read gives the call a copy that agrees with the sector. -/
theorem read (serial : Serial settings start order sector phase) {thread : ι} {data : Sector}
    (reading : phase thread = .reading)
    (front : ∀ i (inside : i < 512), i < vendorSectorLen.toNat → data[i] = sector[i]) :
    Serial settings start order sector (Function.update phase thread (.copied data)) where
  nodup := serial.nodup
  stored other := by
    by_cases same : other = thread
    · subst same
      rw [Function.update_self, serial.stored, reading]
      exact iff_of_false ResolutionPhase.noConfusion ResolutionPhase.noConfusion
    · rw [Function.update_of_ne same]
      exact serial.stored other
  sound other := by
    by_cases same : other = thread
    · subst same
      rw [Function.update_self]
      exact ResolutionPhase.noConfusion
    · rw [Function.update_of_ne same]
      exact serial.sound other
  result := serial.result
  copies other own held i inside ahead position := by
    by_cases same : other = thread
    · subst same
      rw [Function.update_self] at held
      cases held
      exact front i inside ahead
    · rw [Function.update_of_ne same] at held
      exact serial.copies other own held i inside ahead position

/-- An undisturbed store is the next of the calls. -/
theorem store (serial : Serial settings start order sector phase) {thread : ι} {data : Sector}
    (held : phase thread = .copied data)
    (fresh : (settings thread).flag = 0 →
      ∀ i (inside : i < 512), 2 ≤ i → i ≤ 6 → data[i] = sector[i]) :
    Serial settings start (order ++ [thread])
      (copied vendorSectorLen ((settings thread).apply data) sector)
      (Function.update phase thread .stored) := by
  have changed : copied vendorSectorLen ((settings thread).apply data) sector =
      (settings thread).apply sector := by
    apply copied_encodeResolution
    intro i inside ahead unwritten
    by_cases position : i = 0 ∨ 7 ≤ i
    · exact serial.copies thread data held i inside ahead position
    · -- a position that some call rewrites is left alone only where the flag is cleared
      rw [not_or] at position
      have clear : (settings thread).flag = 0 := by
        by_contra set
        match i, position with
        | 1, _ => cases unwritten
        | 2, _ | 3, _ | 4, _ | 5, _ | 6, _ => simp [written, set] at unwritten
        | i + 7, inner => exact inner.2 (Nat.le_add_left 7 i)
      have beyond : i ≠ 1 := by
        rintro rfl
        cases unwritten
      exact fresh clear i inside (by omega) (by omega)
  have absent : thread ∉ order := by
    rw [serial.stored, held]
    exact ResolutionPhase.noConfusion
  rw [changed]
  refine ⟨?_, fun other => ?_, fun other => ?_, ?_, fun other own copy i inside ahead position => ?_⟩
  · refine List.nodup_append.mpr ⟨serial.nodup, List.pairwise_singleton _ thread, ?_⟩
    intro other member last
    rw [List.mem_singleton]
    rintro rfl rfl
    exact absent member
  · rw [List.mem_append, List.mem_singleton]
    by_cases same : other = thread
    · subst same
      rw [Function.update_self]
      exact iff_of_true (.inr rfl) rfl
    · rw [Function.update_of_ne same, or_iff_left same]
      exact serial.stored other
  · by_cases same : other = thread
    · subst same
      rw [Function.update_self]
      exact ResolutionPhase.noConfusion
    · rw [Function.update_of_ne same]
      exact serial.sound other
  · rw [List.foldl_append, ← serial.result]
    rfl
  · by_cases same : other = thread
    · subst same
      rw [Function.update_self] at copy
      cases copy
    · rw [Function.update_of_ne same] at copy
      rw [serial.copies other own copy i inside ahead position, Setting.apply,
        encodeResolution_get inside, written_none position]
      rfl

end Serial

/-- Every interleaving without disturbed stores has an order of its stores. -/
theorem serial_of_shadow {log : List (ι × Event os)} {config : Sector × (ι → ResolutionPhase)}
    (shadow : Shadow undisturbed (fun thread => resolutionMonitor (settings thread))
      (start, fun _ => .reading) log config) :
    ∃ order, Serial settings start order config.1 config.2 := by
  induction shadow with
  | start =>
    refine ⟨[], List.nodup_nil, fun thread => ?_, fun thread => ?_, rfl, fun thread data held => ?_⟩
    · exact iff_of_false List.not_mem_nil ResolutionPhase.noConfusion
    · exact ResolutionPhase.noConfusion
    · cases held
  | @step log sector after phase next thread event earlier moves accepted ih =>
    obtain ⟨order, serial⟩ := ih
    generalize before : phase thread = current at accepted
    have advance := advance_of_accepted accepted moves
    cases advance with
    | stay =>
      refine ⟨order, ?_⟩
      rw [← before, Function.update_eq_self]
      exact serial
    | read front => exact ⟨order, serial.read before front⟩
    | store fresh => exact ⟨order ++ [thread], serial.store before fresh⟩

/-- In every interleaving of any number of calls, as long as no store that clears the flag is
disturbed, the sector is at every moment the one that the calls whose stores are done leave
when they are run one after another; among them are all the calls that have returned. -/
theorem resolutions_serialise (settings : ι → Setting) (start : Sector)
    {log : List (ι × Event os)} {config : Sector × (ι → Program os Bool)}
    (run : Reaches undisturbed (start, fun thread => (settings thread).call) log config) :
    ∃ order : List ι, order.Nodup ∧ OneByOne settings order start config.1 ∧
      ∀ thread value, config.2 thread = .done value → thread ∈ order := by
  obtain ⟨phase, shadow, obeyed⟩ := run.shadow fun thread => call_obeys (settings thread)
  obtain ⟨order, serial⟩ := serial_of_shadow shadow
  refine ⟨order, serial.nodup, (oneByOne_iff settings).mpr serial.result, ?_⟩
  intro thread value returned
  have ended := obeyed thread
  rw [returned] at ended
  exact (serial.stored thread).mpr (ended.resolve_right (serial.sound thread))

end Serial

/-- The device is set to 800x600. -/
def setSmall : Setting := ⟨800, 600, 60, 1, by unfold Accepted; decide⟩

/-- The setting of the device is cleared. -/
def clearSetting : Setting := ⟨800, 600, 60, 0, by unfold Accepted; decide⟩

/-- One call sets the device to 800x600 and the other clears the setting. -/
def setAndClear (thread : Bool) : Setting := if thread then setSmall else clearSetting

/-- A store that sets the flag is never disturbed. -/
theorem setSmall_undisturbed (data sector : Sector) :
    Undisturbed sector (.ioctl .rknandStoreVendorSector0 (withHeader (setSmall.apply data))) := by
  intro cleared
  change (setSmall.apply data)[1] = 0 at cleared
  rw [Setting.apply, encodeResolution_get (by decide)] at cleared
  exact absurd cleared (show (0xAC : UInt8) ≠ 0 by decide)

/-- A store that clears the flag is not disturbed right after the read. -/
theorem clearSetting_undisturbed (sector data : Sector) :
    Undisturbed sector (.ioctl .rknandStoreVendorSector0
      (withHeader (clearSetting.apply (copied vendorSectorLen sector data)))) := by
  intro _ i inside low high
  have ahead : i < vendorSectorLen.toNat := lt_of_le_of_lt high (by decide)
  have unwritten : written clearSetting.xres clearSetting.yres clearSetting.refresh
      clearSetting.flag i = none := by
    match i, low, high with
    | 2, _, _ | 3, _, _ | 4, _, _ | 5, _, _ | 6, _, _ => rfl
  change (clearSetting.apply _)[i] = sector[i]
  rw [Setting.apply, encodeResolution_get inside, unwritten]
  exact copied_agree inside ahead

/-- The device that succeeds answers the next request of a thread. -/
theorem undisturbed_step {ι : Type} [DecidableEq ι] {start config : Sector × (ι → Program os Bool)}
    {log : List (ι × Event os)} (run : Reaches undisturbed start log config) (thread : ι)
    {op : Op} {next : op.Answer → Program os Bool} (waiting : config.2 thread = .ask op next)
    (calm : Undisturbed config.1 op) :
    Reaches undisturbed start (log ++ [(thread, ⟨op, (succeeding config.1 op).1⟩)])
      ((succeeding config.1 op).2,
        Function.update config.2 thread (next (succeeding config.1 op).1)) :=
  run.step (.act waiting ⟨succeeding_allowed config.1 op, calm⟩)

/-- Two calls at once: the one that clears the setting opens the device before the other one does,
and reads and stores the sector between the store and the last read of the other one. -/
theorem resolutions_serialise_overlap : ∃ log config,
    Reaches undisturbed (.replicate 512 0, fun thread => (setAndClear thread).call) log config ∧
      config.2 false = .done true ∧ config.2 true = .done true ∧
      ∃ order : List Bool, order.Nodup ∧
        OneByOne setAndClear order (.replicate 512 0) config.1 ∧
        ∀ thread value, config.2 thread = .done value → thread ∈ order := by
  have unstarted : Reaches undisturbed
      ((.replicate 512 0 : Sector), fun thread => (setAndClear thread).call) [] _ := .start
  have opened := undisturbed_step unstarted false
    (setDeviceResolution_accepted clearSetting.accepted) trivial
  have opened := undisturbed_step opened true
    (setDeviceResolution_accepted setSmall.accepted) trivial
  have read := undisturbed_step (undisturbed_step opened true rfl trivial) true rfl trivial
  have set := undisturbed_step read true rfl (setSmall_undisturbed _ _)
  obtain ⟨sector, set⟩ : ∃ sector, Reaches undisturbed _ _ (sector, _) := ⟨_, set⟩
  have read := undisturbed_step (undisturbed_step set false rfl trivial) false rfl trivial
  have clear := undisturbed_step read false rfl (clearSetting_undisturbed sector _)
  have checked := undisturbed_step (undisturbed_step clear true rfl trivial) false rfl trivial
  have closed := undisturbed_step (undisturbed_step checked true rfl trivial) false rfl trivial
  exact ⟨_, _, closed, rfl, rfl, resolutions_serialise setAndClear _ closed⟩

/-- A call that clears the setting stores the resolution it read before another call set it. -/
theorem not_resolutions_serialise :
    ¬∀ (settings : Bool → Setting) (start : Sector) (log : List (Bool × Event os))
      (config : Sector × (Bool → Program os Bool)),
      Reaches successful (start, fun thread => (settings thread).call) log config →
        (∀ thread, ∃ value, config.2 thread = .done value) →
        ∃ order : List Bool, order.Nodup ∧ (∀ thread, thread ∈ order) ∧
          OneByOne settings order start config.1 := by
  intro serialise
  obtain ⟨log, config, played, first, second, sector⟩ : ∃ log config,
      play succeeding [false, false, false, true, true, true, true, true, true, false, false, false]
        [] ((.replicate 512 0 : Sector), fun thread => (setAndClear thread).call) =
          some (log, config) ∧
        config.2 false = .done true ∧ config.2 true = .done true ∧
        config.1 = copied vendorSectorLen
          (clearSetting.apply (copied vendorSectorLen (.replicate 512 0) (.replicate 512 0)))
          (copied vendorSectorLen
            (setSmall.apply (copied vendorSectorLen (.replicate 512 0) (.replicate 512 0)))
            (.replicate 512 0)) := ⟨_, _, rfl, rfl, rfl, rfl⟩
  have run := play_reaches succeeding_allowed _ .start played
  obtain ⟨order, nodup, complete, oneByOne⟩ := serialise setAndClear _ _ _ run fun thread => by
    cases thread
    · exact ⟨true, first⟩
    · exact ⟨true, second⟩
  have flag : config.1[1] = 0 := by
    rw [sector, Setting.apply, copied_get _ _ _ (by decide), encodeResolution_get (by decide)]
    decide
  have width : config.1[2] = 0 := by
    rw [sector, Setting.apply, copied_get _ _ _ (by decide), encodeResolution_get (by decide),
      copied_get _ _ _ (by decide), Vector.getElem_replicate]
    decide
  rw [oneByOne_iff] at oneByOne
  rw [oneByOne] at flag width
  rcases order with _ | ⟨one, _ | ⟨two, _ | ⟨three, rest⟩⟩⟩
  · exact absurd (complete true) List.not_mem_nil
  · cases one
    · exact absurd (complete true) (by decide)
    · exact absurd (complete false) (by decide)
  · cases one <;> cases two
    · exact absurd nodup (by decide)
    · change (setSmall.apply _)[1] = 0 at flag
      rw [Setting.apply, encodeResolution_get (by decide)] at flag
      exact absurd flag (by decide)
    · change (clearSetting.apply (setSmall.apply _))[2] = 0 at width
      rw [Setting.apply, encodeResolution_get (by decide), Setting.apply,
        encodeResolution_get (by decide)] at width
      exact absurd width (by decide)
    · exact absurd nodup (by decide)
  · cases one <;> cases two <;> cases three <;> simp at nodup

end Rjcore
