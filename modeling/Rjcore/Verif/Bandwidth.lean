import Rjcore.Interaction.Sequence
import Rjcore.Service.Dispatch

/-!
# The downloaded file

`checkBandwidth_block` takes the existence of its temporary file as the success of its
download, and removes the file after measuring it. A call in which the measuring command
prints nothing returns before the removal; the file then stands for the download of a later
call. Without such a call the file is gone after every call, and what a call measures is
what it downloaded.
-/

namespace Rjcore

open Interaction CText RjcoreService

/-- The calls so far, and the call whose download the file holds, while there is a file. -/
structure Download where
  /-- The number of the current call. -/
  call : Nat
  /-- The call that wrote the file. -/
  writer : Option Nat
  deriving DecidableEq

/-- Any command but the measurement may write the file, and every removal succeeds. -/
def downloadWorld : World os Download
  | state, .lock _, _, after => after = ⟨state.call + 1, state.writer⟩
  | state, .popen command, answer, after =>
    after = state ∨
      command ≠ sizeCommand ∧ answer.isSome = true ∧ after = ⟨state.call, some state.call⟩
  | state, .system command, status, after =>
    if command = removeCommand then status = .exited 0 ∧ after = ⟨state.call, none⟩
    else after = state
  | state, .access path, found, after =>
    (path = bandtmpfile → found = state.writer.isSome) ∧ after = state
  | state, _, _, after => after = state

/-- The file measured by a call is one that the call itself downloaded. -/
def MeasuresOwn (steps : List (Download × Event os)) : Prop :=
  ∃ state answer, (state, ⟨.popen sizeCommand, answer⟩) ∈ steps ∧ state.writer = some state.call

/-- The measuring command prints nothing, or nothing before a NUL. -/
def Blank (answer : Option Bytes) : Prop := (answer.getD []).head?.getD nul = nul

/-- No measurement of these events is blank. -/
def Measures (events : List (Event os)) : Prop :=
  ∀ answer, ⟨.popen sizeCommand, answer⟩ ∈ events → ¬Blank answer

/-- Nothing is reported exactly for a blank answer. -/
theorem report_eq_nil_iff {size : Nat} (answer : Option Bytes) (room : 1 < size) :
    report size answer = [] ↔ Blank answer := by
  cases answer with
  | none => exact iff_of_true rfl rfl
  | some output => exact captured_eq_nil_iff output room

/-- The download is not taken for the measurement. -/
theorem downloadCommand_ne (platform : Platform) (serverIp user code : String16) :
    downloadCommand platform serverIp user code ≠ sizeCommand := by
  intro same
  have first := congrArg (fun command => (command.parts.headD (.text [])).bytes.headD 0) same
  unfold downloadCommand at first
  split at first
  · exact absurd first (show (119 : UInt8) ≠ 98 by decide)
  · exact absurd first (show (119 : UInt8) ≠ 98 by decide)

/-! ## One call -/

/-- No measurement is taken. -/
def Unmeasured (steps : List (Download × Event os)) : Prop :=
  ∀ state answer, (state, ⟨.popen sizeCommand, answer⟩) ∉ steps

/-- A command other than the measurement leaves the file or writes it. -/
theorem download_within {command : Command} (other : command ≠ sizeCommand) (result : Bytes)
    (start : Download) :
    (executeCmd command result size1K).Within downloadWorld start fun steps _ final =>
      Unmeasured steps ∧ (final = start ∨ final = ⟨start.call, some start.call⟩) := by
  unfold executeCmd
  split
  · exact ⟨fun _ _ => List.not_mem_nil, .inl rfl⟩
  · intro answer middle moves
    have written : middle = start ∨ middle = ⟨start.call, some start.call⟩ :=
      moves.imp id fun wrote => wrote.2.2
    cases answer with
    | none =>
      refine ⟨fun state answer member => ?_, written⟩
      cases List.mem_singleton.mp member
      exact other rfl
    | some output =>
      intro _ final closed
      refine ⟨fun state answer member => ?_, (closed : final = middle) ▸ written⟩
      rcases List.mem_cons.mp member with same | rest
      · cases same
        exact other rfl
      · cases List.mem_singleton.mp rest

/-- The measurement leaves the file, and its output is reported. -/
theorem size_within (start : Download) :
    (executeCmd sizeCommand (zeros size1K) size1K).Within downloadWorld start
      fun steps buffer final => final = start ∧ ∃ answer, cstr buffer = report size1K answer ∧
        (start, ⟨.popen sizeCommand, answer⟩) ∈ steps ∧
        ∀ state other, (state, ⟨.popen sizeCommand, other⟩) ∈ steps → other = answer := by
  have command : sizeCommand.line ≠ [] := by decide
  rw [executeCmd, if_neg command]
  intro answer middle moves
  have still : middle = start := moves.resolve_right fun wrote => wrote.1 rfl
  cases answer with
  | none =>
    refine ⟨still, none, cstr_zeros size1K, List.mem_singleton.mpr rfl, ?_⟩
    intro state other member
    cases List.mem_singleton.mp member
    rfl
  | some output =>
    intro _ final closed
    refine ⟨(closed : final = middle).trans still, some output,
      (readLoop_fresh (by decide) output).2, List.mem_cons_self, ?_⟩
    intro state other member
    rcases List.mem_cons.mp member with same | rest
    · cases same
      rfl
    · cases List.mem_singleton.mp rest

/-- Reading the size touches nothing. -/
theorem scan_within (text : Bytes) (start : Download) :
    (scanSize text).Within downloadWorld start fun steps _ final =>
      Unmeasured steps ∧ final = start := by
  unfold scanSize
  split
  · exact ⟨fun _ _ => List.not_mem_nil, rfl⟩
  · intro _ final still
    refine ⟨fun state answer member => ?_, still⟩
    cases List.mem_singleton.mp member

/-- The removal removes the file. -/
theorem remove_within (start : Download) :
    (mySystem removeCommand).Within downloadWorld start fun steps _ final =>
      Unmeasured steps ∧ final.writer = none := by
  have command : removeCommand.line ≠ [] := by decide
  rw [mySystem, if_neg command]
  rintro _ _ rfl status middle removed _ _ rfl
  simp only [downloadWorld, ↓reduceIte] at removed
  refine ⟨fun state answer member => ?_, by rw [removed.2]⟩
  rcases List.mem_cons.mp member with same | rest
  · cases same
  · rcases List.mem_cons.mp rest with same | rest
    · cases same
    · cases List.mem_singleton.mp rest

/-- A measurement of the file: a call that learns nothing returns at once, and any other
removes the file. -/
theorem measure_within (platform : Platform) (t_start : Int) (start : Download) :
    (measureBandwidth platform t_start).Within downloadWorld start fun steps value final =>
      ∃ answer, (start, ⟨.popen sizeCommand, answer⟩) ∈ steps ∧
        (∀ state other, (state, ⟨.popen sizeCommand, other⟩) ∈ steps → other = answer) ∧
        (Blank answer → value = [] ∧ final.writer = start.writer) ∧
        (¬Blank answer → final.writer = none) := by
  rintro t_end _ rfl
  change Program.Within _ (executeCmd sizeCommand (zeros size1K) size1K >>= _) _ _
  refine Program.Within.bind (size_within _) ?_
  rintro steps buffer _ ⟨rfl, answer, text, measured, only⟩
  have blank := report_eq_nil_iff answer (show 1 < size1K by decide)
  rw [← text] at blank
  split
  · rename_i nothing
    refine ⟨answer, ?_, ?_, fun _ => ⟨rfl, rfl⟩, fun more => absurd (blank.mp nothing) more⟩
    · rw [List.append_nil]
      exact List.mem_cons_of_mem _ measured
    · intro state other member
      rw [List.append_nil] at member
      rcases List.mem_cons.mp member with same | rest
      · cases same
      · exact only state other rest
  · rename_i something
    refine Program.Within.bind (scan_within _ _) ?_
    rintro scanned buf_size _ ⟨unmeasured, rfl⟩
    refine Program.Within.bind (remove_within _) ?_
    rintro removal status final ⟨unmeasured', gone⟩
    refine ⟨answer, ?_, ?_, fun nothing => absurd (blank.mpr nothing) something, fun _ => gone⟩
    · exact List.mem_cons_of_mem _ (List.mem_append_left _ measured)
    · intro state other member
      simp only [List.append_nil, List.mem_cons, List.mem_append] at member
      rcases member with same | before | scan | remove
      · cases same
      · exact only state other before
      · exact absurd scan (unmeasured state other)
      · exact absurd remove (unmeasured' state other)

/-- What one call does when there is no file in the beginning. -/
structure CallOutcome (steps : List (Download × Event os)) (value : String16) (final : Download) :
    Prop where
  /-- The file is gone exactly when no measurement was blank. -/
  gone_iff : final.writer = none ↔ Measures (steps.map Prod.snd)
  /-- A result stands for the call's own file. -/
  own : value ≠ [] → MeasuresOwn steps

/-- Steps without a measurement have none that is blank. -/
theorem Unmeasured.measures {steps : List (Download × Event os)} (unmeasured : Unmeasured steps) :
    Measures (steps.map Prod.snd) := by
  intro answer member
  obtain ⟨⟨state, event⟩, inSteps, rfl⟩ := List.mem_map.mp member
  exact absurd inSteps (unmeasured state answer)

/-- What a call does is not changed by steps around it that measure nothing. -/
theorem CallOutcome.around {before steps after : List (Download × Event os)} {value : String16}
    {final : Download} (outcome : CallOutcome steps value final) (first : Unmeasured before)
    (last : Unmeasured after) : CallOutcome (before ++ (steps ++ after)) value final := by
  refine ⟨outcome.gone_iff.trans ?_, fun some_value => ?_⟩
  · simp only [List.map_append, Measures, List.mem_append]
    constructor
    · rintro measures answer (before | inSteps | after)
      · exact first.measures answer before
      · exact measures answer inSteps
      · exact last.measures answer after
    · exact fun measures answer inSteps => measures answer (.inr (.inl inSteps))
  · obtain ⟨state, answer, member, own⟩ := outcome.own some_value
    exact ⟨state, answer, List.mem_append_right _ (List.mem_append_left _ member), own⟩

/-- The call once its download is on the way. -/
theorem transfer_within (platform : Platform) (t_start : Int) {command : Command}
    (other : command ≠ sizeCommand) {start : Download} (absent : start.writer = none) :
    (do
      let _ ← executeCmd command (zeros size1K) size1K
      if ← perform (.access bandtmpfile) then measureBandwidth platform t_start
      else pure (utf16 "")).Within downloadWorld start CallOutcome := by
  refine Program.Within.bind (download_within other _ _) ?_
  rintro steps buffer _ ⟨unmeasured, written⟩ found middle ⟨answered, rfl⟩
  have present := answered rfl
  cases found with
  | false =>
    have gone : middle.writer = none :=
      Option.isNone_iff_eq_none.mp (Option.isSome_eq_false_iff.mp present.symm)
    refine ⟨iff_of_true gone ?_, fun some_value => absurd rfl some_value⟩
    refine Unmeasured.measures fun state answer member => ?_
    rcases List.mem_append.mp member with download | rest
    · exact unmeasured state answer download
    · cases List.mem_singleton.mp rest
  | true =>
    have own : middle.writer = some middle.call := by
      rcases written with rfl | rfl
      · rw [absent] at present
        contradiction
      · rfl
    refine (measure_within platform t_start middle).mono ?_
    rintro rest value final ⟨answer, measured, only, blank, reported⟩
    have member : (middle, ⟨.popen sizeCommand, answer⟩) ∈
        steps ++ (middle, ⟨.access bandtmpfile, true⟩) :: rest :=
      List.mem_append_right _ (List.mem_cons_of_mem _ measured)
    refine ⟨⟨fun gone other' inEvents => ?_, fun measures => ?_⟩, fun _ =>
      ⟨middle, answer, member, own⟩⟩
    · -- the only measurement was not blank, because the file would still be there
      obtain ⟨⟨state, event⟩, inSteps, rfl⟩ := List.mem_map.mp inEvents
      simp only [List.mem_append, List.mem_cons] at inSteps
      rcases inSteps with download | same | after
      · exact absurd download (unmeasured state other')
      · cases same
      · rw [only state other' after]
        intro nothing
        rw [(blank nothing).2, own] at gone
        contradiction
    · exact reported (measures answer (List.mem_map_of_mem member))

/-- One call with no file in the beginning. -/
theorem checkBandwidth_within (platform : Platform) (serverIp user code : String16)
    {start : Download} (absent : start.writer = none) :
    (checkBandwidth_block platform serverIp user code).Within downloadWorld start CallOutcome := by
  rintro _ _ rfl
  change Program.Within _ ((if _ then _ else _) >>= _) _ _
  split
  · rintro _ _ rfl
    refine ⟨iff_of_true absent ?_, fun some_value => absurd rfl some_value⟩
    refine Unmeasured.measures fun state answer member => ?_
    rcases List.mem_cons.mp member with same | rest
    · cases same
    · cases List.mem_singleton.mp rest
  · rintro t_start _ rfl
    refine Program.Within.bind (transfer_within platform t_start
      (downloadCommand_ne platform serverIp user code) absent) ?_
    rintro steps value _ outcome _ middle rfl
    have entered : Unmeasured [(start, ⟨.lock .sNetLock, ()⟩),
        (⟨start.call + 1, start.writer⟩, ⟨.time, t_start⟩)] := by
      simp [Unmeasured]
    have left : Unmeasured [(middle, ⟨.unlock .sNetLock, ()⟩)] := by
      simp [Unmeasured]
    exact outcome.around entered left

/-! ## Sequences of calls -/

/-- Over any sequence of calls with any arguments that starts without the file, the file is
gone after every call and no call reports the speed of another call's download, exactly when
no measurement is blank. -/
theorem no_stale_download_iff (platform : Platform) {start final : Download}
    {executions : List (Execution os String16 Download)}
    (sequence : InSequence downloadWorld start executions final)
    (served : ∀ execution ∈ executions, ∃ serverIp user code,
      execution.program = checkBandwidth_block platform serverIp user code)
    (absent : start.writer = none) :
    (∀ execution ∈ executions, execution.after.writer = none ∧
        (execution.value ≠ [] → MeasuresOwn execution.steps)) ↔
      ∀ execution ∈ executions, Measures execution.trace := by
  have outcome : ∀ execution ∈ executions, execution.Valid downloadWorld →
      execution.before.writer = none →
        CallOutcome execution.steps execution.value execution.after := by
    intro execution member valid before
    obtain ⟨serverIp, user, code, program⟩ := served execution member
    apply valid.within
    rw [program]
    exact checkBandwidth_within platform serverIp user code before
  constructor
  · intro kept execution member
    obtain ⟨_, each⟩ := sequence.invariant (fun state => state.writer = none) absent
      fun other inSequence _ _ => (kept other inSequence).1
    obtain ⟨valid, before, after⟩ := each execution member
    exact (outcome execution member valid before).gone_iff.mp after
  · intro measures execution member
    obtain ⟨_, each⟩ := sequence.invariant (fun state => state.writer = none) absent
      fun other inSequence valid before =>
        (outcome other inSequence valid before).gone_iff.mpr (measures other inSequence)
    obtain ⟨valid, before, after⟩ := each execution member
    exact ⟨after, (outcome execution member valid before).own⟩

/-- Days on which the measuring command prints a text in each call, and the download of some
calls fails. -/
def eachCall (downloads : Nat → Bool) (sizes : Nat → Bytes) (state : Download) :
    (op : Op) → op.Answer × Download
  | .lock _ => ((), ⟨state.call + 1, state.writer⟩)
  | .popen command =>
    if command = sizeCommand then (some (sizes state.call), state)
    else (some [], if downloads state.call then ⟨state.call, some state.call⟩ else state)
  | .system command => (.exited 0, if command = removeCommand then ⟨state.call, none⟩ else state)
  | .access _ => (state.writer.isSome, state)
  | op => (op.uneventful, state)

/-- The world allows these answers. -/
theorem eachCall_allowed (downloads : Nat → Bool) (sizes : Nat → Bytes) (state : Download)
    (op : Op) : downloadWorld state op (eachCall downloads sizes state op).1
      (eachCall downloads sizes state op).2 := by
  cases op with
  | access path => exact ⟨fun _ => rfl, rfl⟩
  | popen command =>
    by_cases measure : command = sizeCommand
    · simp only [eachCall, measure, ↓reduceIte, downloadWorld]
      exact .inl trivial
    · simp only [eachCall, measure, ↓reduceIte, downloadWorld]
      cases downloads state.call
      · exact .inl rfl
      · exact .inr ⟨measure, rfl, rfl⟩
  | system command =>
    by_cases removal : command = removeCommand
    · simp only [eachCall, removal, ↓reduceIte, downloadWorld, and_self]
    · simp only [eachCall, removal, ↓reduceIte, downloadWorld]
  | _ => exact rfl

/-- Two calls on such a day. -/
def twoCalls (downloads : Nat → Bool) (sizes : Nat → Bytes) : List (Execution os String16 Download) :=
  Execution.respondAll (eachCall downloads sizes) ⟨0, none⟩
    (List.replicate 2 (checkBandwidth_block (.plain false) (utf16 "10.0.0.1") [] []))

/-- The second call follows the first. -/
theorem twoCalls_sequence (downloads : Nat → Bool) (sizes : Nat → Bytes) : (∃ final,
    InSequence downloadWorld ⟨0, none⟩ (twoCalls downloads sizes) final) ∧
      ∀ execution ∈ twoCalls downloads sizes, ∃ serverIp user code,
        execution.program = checkBandwidth_block (.plain false) serverIp user code := by
  obtain ⟨sequence, programs⟩ := Execution.respondAll_inSequence (eachCall_allowed downloads sizes)
    ⟨0, none⟩ (List.replicate 2 (checkBandwidth_block (.plain false) (utf16 "10.0.0.1") [] []))
  refine ⟨sequence, fun execution member => ?_⟩
  have program : execution.program ∈ _ := List.mem_map_of_mem member
  rw [twoCalls, programs] at program
  exact ⟨_, _, _, List.eq_of_mem_replicate program⟩

/-- Two calls that measure what they downloaded. -/
theorem no_stale_download_twoCalls :
    (∀ execution ∈ twoCalls (fun _ => true) (fun _ => ascii "5.0M\n"),
        execution.after.writer = none ∧ (execution.value ≠ [] → MeasuresOwn execution.steps)) ↔
      ∀ execution ∈ twoCalls (fun _ => true) (fun _ => ascii "5.0M\n"),
        Measures execution.trace :=
  have ⟨⟨_, sequence⟩, served⟩ := twoCalls_sequence (fun _ => true) fun _ => ascii "5.0M\n"
  no_stale_download_iff (.plain false) sequence served rfl

/-- The first call downloads the file and learns nothing about it: the file is still there
when the second call, which downloads nothing, measures it. -/
theorem not_no_stale_download :
    ¬∀ (platform : Platform) (start final : Download)
      (executions : List (Execution os String16 Download)),
      InSequence downloadWorld start executions final →
        (∀ execution ∈ executions, ∃ serverIp user code,
          execution.program = checkBandwidth_block platform serverIp user code) →
        start.writer = none →
          ∀ execution ∈ executions, execution.after.writer = none ∧
            (execution.value ≠ [] → MeasuresOwn execution.steps) := by
  intro kept
  obtain ⟨⟨final, sequence⟩, served⟩ :=
    twoCalls_sequence (fun call => call = 1) fun call => if call = 1 then [] else ascii "5.0M\n"
  have gone := (kept _ _ _ _ sequence served rfl _ List.mem_cons_self).1
  exact absurd gone (by decide)

end Rjcore
