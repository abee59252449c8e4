import Mathlib.Algebra.Order.Field.Rat
import Mathlib.Tactic.NormNum
import Rjcore.Text.Digits
import Rjcore.Verif.Bandwidth

/-!
# The bandwidth figure

`checkBandwidth_block` divides the number that `du -h` prints in front of an `M` by the seconds
between two clock readings. Only sizes printed in mebibytes are cut there: any other suffix
is dropped and the number taken as it stands. Both the number and the seconds are followed to
the point where the quotient is printed, so that the rounding plays no part.
-/

namespace Rjcore

open Interaction CText RjcoreService

/-- The suffixes of a printed size. -/
inductive SizeSuffix
  | bytes
  | kibi
  | mebi
  | gibi

namespace SizeSuffix

/-- The letter. -/
def letter : SizeSuffix → Bytes
  | .bytes => []
  | .kibi => ascii "K"
  | .mebi => ascii "M"
  | .gibi => ascii "G"

/-- The unit, in units of 1024*1024 bytes. -/
def unit : SizeSuffix → Rat
  | .bytes => 1 / (1024 * 1024)
  | .kibi => 1 / 1024
  | .mebi => 1
  | .gibi => 1024

end SizeSuffix

/-- A size as `du -h` prints it. -/
structure DuSize where
  /-- The digits before the point. -/
  whole : Bytes
  /-- The digits behind it, where there is one. -/
  fraction : Option Bytes
  /-- The suffix. -/
  suffix : SizeSuffix
  /-- There are digits before the point. -/
  some_whole : whole ≠ []
  /-- They are digits. -/
  digits : ∀ byte ∈ whole ++ fraction.getD [], isDigit byte = true
  /-- With a point, a suffix and the newline it fits the buffer that is scanned into. -/
  short : whole.length + (fraction.getD []).length + 3 < size1KHalf

namespace DuSize

/-- The decimal number. -/
def number (size : DuSize) : Bytes :=
  size.whole ++ (size.fraction.map fun digits => 46 :: digits).getD []

/-- The printed line. -/
def line (size : DuSize) : Bytes := size.number ++ size.suffix.letter ++ [newline]

/-- The value of the number. -/
def value (size : DuSize) : Rat :=
  digitsValue (size.whole ++ size.fraction.getD []) / 10 ^ (size.fraction.getD []).length

/-- The size of the file, in units of 1024*1024 bytes. -/
def mebibytes (size : DuSize) : Rat := size.value * size.suffix.unit

end DuSize

/-- What the clock shows in a run, in order. -/
def clockReadings (trace : List (Event os)) : List Int :=
  trace.filterMap fun event =>
    match event with
    | ⟨.time, reading⟩ => some reading
    | _ => none

/-- The same platform with another way to print a quotient. -/
def Platform.printing (platform : Platform) (print : Rat → Int → Bytes) : Platform :=
  { platform with printRatio := print }

/-- However quotients are printed, a figure that is reported for these readings of the clock and
this size is the quotient of the size in units of 1024*1024 bytes and the seconds between the
readings, and no quotient by zero. -/
def FigureIsQuotient (platform : Platform) (serverIp user code : String16) (t_start t_end : Int)
    (size : DuSize) : Prop :=
  ∃ (amount : Rat) (seconds : Int),
    seconds ≠ 0 ∧ amount / seconds = size.mebibytes / (t_end - t_start : Int) ∧
    ∀ print, (checkBandwidth_block (platform.printing print) serverIp user code).Ensures
      fun trace reported => reported ≠ utf16 "" → clockReadings trace = [t_start, t_end] →
        ⟨.popen sizeCommand, some size.line⟩ ∈ trace →
          reported = platform.string16 (snprintf size1KHalf (print amount seconds ++ ascii "Mb/s"))

section Number

variable (size : DuSize)

/-- The bytes of a number are digits and the point. -/
theorem DuSize.byte_number {byte : UInt8} (member : byte ∈ size.number) :
    isDigit byte = true ∨ byte = 46 := by
  rcases List.mem_append.mp member with inWhole | behind
  · exact .inl (size.digits byte (List.mem_append_left _ inWhole))
  · cases some_fraction : size.fraction with
    | none =>
      rw [some_fraction] at behind
      exact absurd behind List.not_mem_nil
    | some fraction =>
      rw [some_fraction] at behind
      rcases List.mem_cons.mp behind with point | inFraction
      · exact .inr point
      · refine .inl (size.digits byte (List.mem_append_right _ ?_))
        rwa [some_fraction]

/-- The line is text, and shorter than the buffers. -/
theorem DuSize.line_spec : nul ∉ size.line ∧ size.line.length < size1KHalf := by
  constructor
  · intro member
    rcases List.mem_append.mp member with inNumber | last
    · rcases List.mem_append.mp inNumber with digit | letter
      · rcases size.byte_number digit with digit | point
        · exact absurd digit (by decide)
        · exact absurd point (by decide)
      · cases suffix : size.suffix <;> rw [suffix] at letter <;> exact absurd letter (by decide)
    · exact absurd (List.mem_singleton.mp last) (by decide)
  · have room := size.short
    have point : ((size.fraction.map fun digits => 46 :: digits).getD []).length ≤
        (size.fraction.getD []).length + 1 := by
      cases size.fraction <;> simp
    have letter : size.suffix.letter.length ≤ 1 := by
      cases size.suffix <;> decide
    simp only [line, number, List.length_append, List.length_singleton]
    omega

/-- What is scanned of the line is the number and, unless it is cut at an `M`, what follows. -/
theorem DuSize.scanned : ∃ rest, sscanfUntil 77 size.line = some (size.number ++ rest) ∧
    ∀ byte ∈ rest.head?, isDigit byte = false ∧ byte ≠ 46 ∧ byte ≠ 101 ∧ byte ≠ 69 := by
  have noM : ∀ byte ∈ size.number, decide (byte ≠ 77) = true := by
    intro byte member
    rw [decide_eq_true_eq]
    rintro rfl
    rcases size.byte_number member with digit | point
    · exact absurd digit (by decide)
    · exact absurd point (by decide)
  have some_number : size.number ≠ [] := by
    simp [number, size.some_whole]
  refine ⟨(size.suffix.letter ++ [newline]).takeWhile (· ≠ 77), ?_, ?_⟩
  · simp only [sscanfUntil]
    rw [line, List.append_assoc, List.takeWhile_append_of_pos noM, if_neg (by simp [some_number])]
  · have first : ((size.suffix.letter ++ [newline]).takeWhile (· ≠ 77)).head?.all fun byte =>
        !isDigit byte && byte ≠ 46 && byte ≠ 101 && byte ≠ 69 := by
      cases size.suffix <;> decide
    intro byte member
    rw [Option.mem_def.mp member] at first
    simpa [and_assoc] using first

/-- The number scanned has the value of the size. -/
theorem DuSize.atof_scanned : atof ((sscanfUntil 77 size.line).getD []) = size.value := by
  obtain ⟨rest, scanned, ends⟩ := size.scanned
  have value := atof_decimal size.some_whole size.digits ends
  rw [scanned, Option.getD_some, number, List.append_assoc]
  exact value

/-- The number is the size in units of 1024*1024 bytes exactly when the suffix says so, or when
it is zero. -/
theorem DuSize.value_eq_mebibytes_iff :
    size.value = size.mebibytes ↔ size.suffix = .mebi ∨ size.value = 0 := by
  have one : size.suffix.unit = 1 ↔ size.suffix = .mebi := by
    cases size.suffix with
    | mebi => exact iff_of_true rfl rfl
    | bytes => exact iff_of_false (by norm_num [SizeSuffix.unit]) SizeSuffix.noConfusion
    | kibi => exact iff_of_false (by norm_num [SizeSuffix.unit]) SizeSuffix.noConfusion
    | gibi => exact iff_of_false (by norm_num [SizeSuffix.unit]) SizeSuffix.noConfusion
  rw [mebibytes, ← one, eq_comm]
  exact mul_right_eq_self₀

end Number

/-- What is shown for the text of a size and a number of seconds. -/
def figure (platform : Platform) (text : Bytes) (seconds : Int) : String16 :=
  platform.string16 (snprintf size1KHalf
    (platform.printRatio (atof ((sscanfUntil 77 text).getD [])) seconds ++ ascii "Mb/s"))

/-- These events neither read the clock nor measure the file. -/
def Aside (trace : List (Event os)) : Prop :=
  clockReadings trace = [] ∧ ∀ answer, ⟨.popen sizeCommand, answer⟩ ∉ trace

@[simp] theorem clockReadings_append (first second : List (Event os)) :
    clockReadings (first ++ second) = clockReadings first ++ clockReadings second :=
  List.filterMap_append

@[simp] theorem clockReadings_time (reading : Int) (rest : List (Event os)) :
    clockReadings (⟨.time, reading⟩ :: rest) = reading :: clockReadings rest := rfl

/-- The clock is not read while a command runs. -/
theorem clockReadings_pipe (command : Command) (answer : Option Bytes) :
    clockReadings (pipe command answer) = [] := by
  cases answer <;> rfl

/-- What is scanned is the size up to the `M`. -/
theorem scanSize_ensures (text : Bytes) : (scanSize text).Ensures fun trace buf_size =>
    Aside trace ∧ buf_size = (sscanfUntil 77 text).getD [] := by
  unfold scanSize
  split
  · rename_i nothing
    exact ⟨⟨rfl, fun _ => List.not_mem_nil⟩, by rw [nothing]; rfl⟩
  · rename_i size scanned
    intro _
    exact ⟨⟨rfl, by simp⟩, by rw [scanned]; rfl⟩

/-- Of a measurement that prints something, the figure of what is printed is reported. -/
theorem measureBandwidth_ensures (platform : Platform) (t_start : Int) :
    (measureBandwidth platform t_start).Ensures fun trace reported => ∃ t_end answer,
      clockReadings trace = [t_end] ∧
      (∀ other, ⟨.popen sizeCommand, other⟩ ∈ trace → other = answer) ∧
      reported = if report size1K answer = [] then utf16 "" else
        figure platform (report size1K answer) (t_end - t_start) := by
  intro t_end
  change Program.Ensures (executeCmd sizeCommand (zeros size1K) size1K >>= _) _
  refine Program.Ensures.bind (executeCmd_report (by decide) (by decide)) ?_
  rintro _ result ⟨_, answer, rfl, text⟩
  have quiet := clockReadings_pipe sizeCommand answer
  have only : ∀ other, ⟨.popen sizeCommand, other⟩ ∈ pipe sizeCommand answer → other = answer :=
    fun other member => (popen_mem_pipe.mp member).2
  rw [text]
  by_cases nothing : report size1K answer = []
  · rw [if_pos nothing]
    refine ⟨t_end, answer, ?_, fun other member => ?_, (if_pos nothing).symm⟩
    · rw [List.append_nil]
      exact congrArg (t_end :: ·) quiet
    · rw [List.append_nil] at member
      exact only other ((List.mem_cons.mp member).resolve_left nofun)
  · rw [if_neg nothing]
    refine Program.Ensures.bind (scanSize_ensures _) ?_
    rintro scan _ ⟨⟨still, aside⟩, rfl⟩
    refine Program.Ensures.bind (mySystem_ensures (by decide)) ?_
    rintro _ _ ⟨saved, status, restored, rfl, rfl⟩
    refine ⟨t_end, answer, ?_, fun other member => ?_, (if_neg nothing).symm⟩
    · rw [clockReadings_time, clockReadings_append, clockReadings_append, quiet, still]
      rfl
    · simp only [List.append_nil, List.mem_cons, List.mem_append] at member
      rcases member with same | sized | scanned | same | same | same | last
      · cases same
      · exact only other sized
      · exact absurd scanned (aside other)
      · cases same
      · cases same
      · cases same
      · cases last

/-- A call that measures the file reports the figure, and a call that does not reports nothing. -/
theorem checkBandwidth_ensures (platform : Platform) (serverIp user code : String16) :
    (checkBandwidth_block platform serverIp user code).Ensures fun trace reported =>
      (reported = utf16 "" ∧ ∀ answer, ⟨.popen sizeCommand, answer⟩ ∉ trace) ∨
        ∃ t_start t_end answer, clockReadings trace = [t_start, t_end] ∧
          (∀ other, ⟨.popen sizeCommand, other⟩ ∈ trace → other = answer) ∧
          reported = if report size1K answer = [] then utf16 "" else
            figure platform (report size1K answer) (t_end - t_start) := by
  intro _
  change Program.Ensures ((if _ then _ else _) >>= _) _
  split
  · exact fun _ => .inl ⟨rfl, by simp⟩
  · intro t_start
    change Program.Ensures ((executeCmd (downloadCommand platform serverIp user code) _ _ >>= _)
      >>= _) _
    rw [Program.bind_assoc]
    refine Program.Ensures.bind (executeCmd_report (by decide)
      (downloadCommand_line_ne_nil platform serverIp user code)) ?_
    rintro _ _ ⟨_, download, rfl, _⟩
    have quiet := clockReadings_pipe (downloadCommand platform serverIp user code) download
    have other : ∀ answer, ⟨.popen sizeCommand, answer⟩ ∉
        pipe (downloadCommand platform serverIp user code) download := fun answer member =>
      downloadCommand_ne platform serverIp user code (popen_mem_pipe.mp member).1.symm
    intro found
    cases found with
    | false =>
      refine fun _ => .inl ⟨rfl, fun answer member => ?_⟩
      simp [other] at member
    | true =>
      refine Program.Ensures.bind (measureBandwidth_ensures platform t_start) ?_
      rintro trace reported ⟨t_end, answer, readings, only, shown⟩ _
      refine .inr ⟨t_start, t_end, answer, ?_, fun other' member => ?_, shown⟩
      · change t_start :: clockReadings (pipe _ download ++ ⟨.access bandtmpfile, true⟩ :: _) = _
        rw [clockReadings_append, quiet]
        change t_start :: clockReadings (trace ++ _) = _
        rw [clockReadings_append, readings]
        rfl
      · simp only [List.mem_cons, List.mem_append] at member
        rcases member with same | same | downloaded | same | measured | same | last
        · cases same
        · cases same
        · exact absurd downloaded (other other')
        · cases same
        · exact only other' measured
        · cases same
        · cases last

/-- Where the address is refused, nothing is reported. -/
theorem checkBandwidth_refused {platform : Platform} {serverIp : String16} (user code : String16)
    (refused : checkIpaddr platform (platform.string serverIp) = false) :
    (checkBandwidth_block platform serverIp user code).Ensures
      fun _ reported => reported = utf16 "" := by
  intro _
  change Program.Ensures ((if _ then _ else _) >>= _) _
  rw [if_pos refused]
  exact fun _ => rfl

/-- A measurement of a size reports its figure. -/
theorem reports_figure (platform : Platform) (serverIp user code : String16) (t_start t_end : Int)
    (size : DuSize) : (checkBandwidth_block platform serverIp user code).Ensures
      fun trace reported => clockReadings trace = [t_start, t_end] →
        ⟨.popen sizeCommand, some size.line⟩ ∈ trace →
          reported = figure platform size.line (t_end - t_start) := by
  refine (checkBandwidth_ensures platform serverIp user code).mono ?_
  rintro trace reported (⟨_, unmeasured⟩ | ⟨_, _, answer, clock, only, shown⟩) readings measured
  · exact absurd measured (unmeasured _)
  · rw [readings] at clock
    cases clock
    have text := report_text size.line_spec.1 (size.line_spec.2.trans (show 512 < size1K by decide))
    rw [← only _ measured, text, if_neg (by simp [DuSize.line])] at shown
    exact shown

/-- Every size may be measured at any time. -/
theorem measureBandwidth_runs (platform : Platform) (t_start t_end : Int) (size : DuSize) :
    ∃ trace reported, (measureBandwidth platform t_start).Runs trace reported ∧
      clockReadings trace = [t_end] ∧ ⟨.popen sizeCommand, some size.line⟩ ∈ trace := by
  obtain ⟨_, _, sized⟩ := executeCmd_runs (show 0 < size1K by decide)
    (show sizeCommand.line ≠ [] by decide) (some size.line)
  obtain ⟨rest, reported, after⟩ := Program.exists_runs_bind sized _
  have run : (measureBandwidth platform t_start).Runs
      (⟨.time, t_end⟩ :: (pipe sizeCommand (some size.line) ++ rest)) reported :=
    @Program.Runs.ask os _ .time _ _ _ t_end after
  refine ⟨_, reported, run, ?_, by simp [pipe]⟩
  -- the clock is read once, and this is that reading
  obtain ⟨_, _, readings, _⟩ :=
    Program.ensures_iff.mp (measureBandwidth_ensures platform t_start) _ _ run
  rw [readings]
  exact congrArg (fun reading => [reading]) (List.cons.inj readings).1.symm

/-- Where the address is accepted, every size may be measured between any readings. -/
theorem checkBandwidth_runs {platform : Platform} {serverIp : String16} (user code : String16)
    (accepted : checkIpaddr platform (platform.string serverIp) = true) (t_start t_end : Int)
    (size : DuSize) : ∃ trace reported,
      (checkBandwidth_block platform serverIp user code).Runs trace reported ∧
        clockReadings trace = [t_start, t_end] ∧ ⟨.popen sizeCommand, some size.line⟩ ∈ trace := by
  obtain ⟨_, _, downloaded⟩ := executeCmd_runs (show 0 < size1K by decide)
    (downloadCommand_line_ne_nil platform serverIp user code) none
  obtain ⟨trace, reported, run, readings, measured⟩ :=
    measureBandwidth_runs platform t_start t_end size
  refine ⟨⟨.lock .sNetLock, ()⟩ :: (⟨.time, t_start⟩ ::
    (pipe (downloadCommand platform serverIp user code) none ++
      ⟨.access bandtmpfile, true⟩ :: trace) ++ [⟨.unlock .sNetLock, ()⟩]), reported, ?_, ?_, ?_⟩
  · refine @Program.Runs.ask os _ (.lock .sNetLock) _ _ _ () ?_
    change Program.Runs ((if _ then _ else _) >>= _) _ _
    rw [if_neg (by simp [accepted])]
    refine Program.runs_bind.mpr ⟨_, reported, _, rfl, ?_,
      @Program.Runs.ask os _ (.unlock .sNetLock) _ _ _ () (.done _)⟩
    refine @Program.Runs.ask os _ .time _ _ _ t_start ?_
    change Program.Runs (executeCmd (downloadCommand platform serverIp user code) _ _ >>= _) _ _
    refine Program.runs_bind.mpr ⟨_, _, _, rfl, downloaded, ?_⟩
    exact @Program.Runs.ask os _ (.access bandtmpfile) _ _ _ true run
  · change t_start :: clockReadings (trace ++ _) = _
    rw [clockReadings_append, readings]
    rfl
  · simp [measured]

/-- A printer that tells one quotient from all others. -/
def printOne (amount : Rat) (seconds : Int) (amount' : Rat) (seconds' : Int) : Bytes :=
  ascii (if amount' = amount ∧ seconds' = seconds then "1" else "0")

/-- What is shown with this printer. -/
theorem string16_printOne (platform : Platform) (amount amount' : Rat) (seconds seconds' : Int) :
    platform.string16 (snprintf size1KHalf
        (printOne amount seconds amount' seconds' ++ ascii "Mb/s")) =
      utf16 (if amount' = amount ∧ seconds' = seconds then "1Mb/s" else "0Mb/s") := by
  unfold printOne
  split
  · rw [platform.string16_ascii _ (List.forall_iff_forall_mem.mp (by decide))]
    decide
  · rw [platform.string16_ascii _ (List.forall_iff_forall_mem.mp (by decide))]
    decide

/-- Where the address is accepted, the figure is the quotient only if the clock has advanced and
the size is printed in mebibytes or is zero. -/
theorem FigureIsQuotient.in_mebibytes {platform : Platform} {serverIp user code : String16}
    {t_start t_end : Int} {size : DuSize}
    (quotient : FigureIsQuotient platform serverIp user code t_start t_end size)
    (accepted : checkIpaddr platform (platform.string serverIp) = true) :
    t_start ≠ t_end ∧ (size.suffix = .mebi ∨ size.value = 0) := by
  obtain ⟨amount, seconds, nonzero, value, every⟩ := quotient
  let printer := platform.printing (printOne size.value (t_end - t_start))
  obtain ⟨trace, reported, run, readings, measured⟩ :=
    @checkBandwidth_runs printer serverIp user code accepted t_start t_end size
  have shown := Program.ensures_iff.mp
    (reports_figure printer serverIp user code t_start t_end size) _ _ run readings measured
  change reported = platform.string16 (snprintf size1KHalf
    (printOne _ _ (atof ((sscanfUntil 77 size.line).getD [])) _ ++ _)) at shown
  rw [size.atof_scanned, string16_printOne, if_pos ⟨rfl, rfl⟩] at shown
  have figured := Program.ensures_iff.mp (every _) _ _ run
    (by rw [shown]; decide) readings measured
  rw [string16_printOne, shown] at figured
  obtain ⟨rfl, rfl⟩ : amount = size.value ∧ seconds = t_end - t_start := by
    by_contra other
    rw [if_neg other] at figured
    exact absurd figured (by decide)
  have advanced : t_start ≠ t_end := by
    rintro rfl
    exact nonzero (Int.sub_self _)
  exact ⟨advanced, size.value_eq_mebibytes_iff.mp
    ((div_left_inj' (Int.cast_ne_zero.mpr nonzero)).mp value)⟩

/-- Where the clock advances, a size printed in mebibytes is divided by the seconds. -/
theorem figureIsQuotient_of_mebibytes {platform : Platform} {serverIp user code : String16}
    {t_start t_end : Int} {size : DuSize} (advanced : t_start ≠ t_end)
    (unit : size.suffix = .mebi ∨ size.value = 0) :
    FigureIsQuotient platform serverIp user code t_start t_end size := by
  refine ⟨size.value, t_end - t_start, sub_ne_zero.mpr advanced.symm, ?_, fun print => ?_⟩
  · rw [← size.value_eq_mebibytes_iff.mpr unit]
  · refine (reports_figure _ serverIp user code t_start t_end size).mono ?_
    intro trace reported shown _ readings measured
    rw [← size.atof_scanned]
    exact shown readings measured

/-- The figure is the size of the file in units of 1024*1024 bytes divided by the seconds if and
only if nothing is measured because the address is refused, or the clock has advanced and the
size is printed in mebibytes or is zero. -/
theorem figureIsQuotient_iff (platform : Platform) (serverIp user code : String16)
    (t_start t_end : Int) (size : DuSize) :
    FigureIsQuotient platform serverIp user code t_start t_end size ↔
      checkIpaddr platform (platform.string serverIp) = false ∨
        t_start ≠ t_end ∧ (size.suffix = .mebi ∨ size.value = 0) := by
  constructor
  · intro quotient
    cases accepted : checkIpaddr platform (platform.string serverIp) with
    | false => exact .inl rfl
    | true => exact .inr (quotient.in_mebibytes accepted)
  · rintro (refused | ⟨advanced, unit⟩)
    · refine ⟨size.mebibytes / (t_end - t_start : Int), 1, by decide, by simp, fun print => ?_⟩
      exact (@checkBandwidth_refused (platform.printing print) serverIp user code refused).mono
        fun _ _ nothing some_figure => absurd nothing some_figure
    · exact figureIsQuotient_of_mebibytes advanced unit

/-- Twelve kibibytes. -/
def twelveK : DuSize where
  whole := ascii "12"
  fraction := none
  suffix := .kibi
  some_whole := by decide
  digits := List.forall_iff_forall_mem.mp (by decide)
  short := by decide

/-- Twelve kibibytes in a second are shown as twelve mebibytes. -/
theorem not_figureIsQuotient : ¬∀ (platform : Platform) (serverIp user code : String16)
    (t_start t_end : Int) (size : DuSize), t_start ≤ t_end →
      FigureIsQuotient platform serverIp user code t_start t_end size := by
  intro quotient
  obtain ⟨_, unit | zero⟩ := (quotient (.plain false) (utf16 "10.0.0.1") (utf16 "") (utf16 "") 0 1
    twelveK (by decide)).in_mebibytes (by decide)
  · cases unit
  · have number : digitsValue (ascii "12") = 12 := by decide
    simp [DuSize.value, twelveK, number] at zero

end Rjcore
