import Rjcore.Interaction.Balance
import Rjcore.Service.Methods
import Rjcore.Verif.Handles
import Rjcore.Verif.Sessions

/-!
# Running out of directories

No directory that a method opens is ever closed. Descriptors and streams are closed again, by the
thread that opened them, so every directory ever opened counts against the limit of the process:
over the whole life of the server, in every interleaving of its clients, the test for
directories succeeds at most as often as there were handles left in the beginning.
-/

namespace Rjcore

open Interaction CText

/-- A process with a limit of open handles. Which paths name directories may change at any time, and
the test for one may fail for other reasons too; it succeeds only while a handle is left. -/
def limitedWorld (limit : Int) : World os Held
  | held, .opendir path, answer, after =>
    (answer = true → held.total < limit) ∧ after = held.after [⟨.opendir path, answer⟩]
  | held, op, answer, after => after = held.after [⟨op, answer⟩]

/-- A descriptor or a stream is opened. -/
def takesHandle (event : Event os) : Bool :=
  opens event = some .descriptor || opens event = some .stream

/-- A descriptor or a stream is closed. -/
def freesHandle (event : Event os) : Bool :=
  closes event = some .descriptor || closes event = some .stream

/-- A directory is opened. -/
def takesDirectory (event : Event os) : Bool := opens event = some .directory

/-- No event does both. -/
theorem takesHandle_apart (event : Event os) (takes : takesHandle event = true) :
    freesHandle event = false := by
  obtain ⟨op, answer⟩ := event
  cases op with
  | fopen path mode => rfl
  | popen command => rfl
  | «open» path => rfl
  | opendir path => rfl
  | _ => simp [takesHandle, opens] at takes

/-- A program that closes every descriptor and every stream that it opens. -/
abbrev Returns {α : Type} (program : Program os α) : Prop := Closes takesHandle freesHandle program

/-- An operation on nothing but a directory. -/
theorem Returns.quiet (op : Op) (isQuiet : op.Quiet) : Returns (perform op) := by
  refine .ask (fun answer => ?_) .done
  cases op with
  | opendir path => cases answer <;> exact ⟨rfl, rfl⟩
  | access | propertyGet | time | statfs | sync | lock | unlock | uninitialized | write =>
    exact ⟨rfl, rfl⟩
  | _ => exact isQuiet.elim

/-- Every method closes the descriptors and the streams that it opens. -/
theorem returns_discipline (platform : Platform) : Discipline platform Returns where
  done value := .done value
  bind := .bind
  quiet := Returns.quiet
  executeCmd := by
    intro cmd result size
    unfold executeCmd
    split
    · exact .done _
    · intro count answer
      cases answer with
      | none => exact ⟨count, rfl, rfl⟩
      | some output => exact ⟨count + 1, rfl, fun _ => ⟨count, rfl, rfl⟩⟩
  mySystem := by
    intro cmd
    unfold mySystem
    split
    · exact .done _
    · exact .ask (fun _ => ⟨rfl, rfl⟩) fun _ =>
        .ask (fun _ => ⟨rfl, rfl⟩) fun _ => .ask (fun _ => ⟨rfl, rfl⟩) fun _ => .done _
  setDeviceResolution := by
    intro xres yres refresh flag count
    unfold RjcoreService.setDeviceResolution
    split
    · rfl
    split
    · rfl
    split
    · rfl
    split
    · rfl
    intro opened
    cases opened with
    | false => exact ⟨count, rfl, rfl⟩
    | true =>
      refine ⟨count + 1, rfl, fun data => ⟨count + 1, rfl, fun read => ⟨count + 1, rfl, ?_⟩⟩⟩
      cases read with
      | none => exact fun _ => ⟨count, rfl, rfl⟩
      | some sysData =>
        refine fun stored => ⟨count + 1, rfl, ?_⟩
        cases stored with
        | none => exact fun _ => ⟨count, rfl, rfl⟩
        | some sysData =>
          refine fun reread => ⟨count + 1, rfl, ?_⟩
          cases reread with
          | none => exact fun _ => ⟨count, rfl, rfl⟩
          | some sysData => exact fun _ => ⟨count, rfl, rfl⟩
  getSupportResolution := by
    have listed : ∀ support indices res,
        Returns (RjcoreService.listResolutions support indices res) := by
      intro support indices
      induction indices with
      | nil => exact fun res => .done res
      | cons i rest ih =>
        intro res
        unfold RjcoreService.listResolutions
        split
        · exact .bind (.bind (Returns.quiet _ trivial) fun _ => .done _) fun _ => ih _
        · exact ih _
    intro count opened
    cases opened with
    | none => exact ⟨count, rfl, rfl⟩
    | some file =>
      refine ⟨count + 1, rfl, ?_⟩
      simp only [Program.bind]
      split
      · exact fun _ => ⟨count, rfl, rfl⟩
      · refine Program.Obeys.bind (listed _ _ _ (count + 1)) fun after res same => ?_
        subst same
        exact fun _ => ⟨count, rfl, rfl⟩

/-- The only directory is the one that a successful test opens. -/
theorem opendir_of_takesDirectory {event : Event os} (takes : takesDirectory event = true) :
    ∃ path, event = ⟨.opendir path, true⟩ := by
  obtain ⟨op, answer⟩ := event
  cases op with
  | opendir path =>
    cases answer with
    | true => exact ⟨path, rfl⟩
    | false => simp [takesDirectory, opens] at takes
  | fopen path mode => cases answer <;> simp [takesDirectory, opens] at takes
  | popen command => cases answer <;> simp [takesDirectory, opens] at takes
  | «open» path => cases answer <;> simp [takesDirectory, opens] at takes
  | _ => simp [takesDirectory, opens] at takes

/-! ## The count of a run -/

/-- What one event leaves open, of all kinds together. -/
theorem leaves_event (event : Event os) :
    leaves .descriptor [event] + leaves .stream [event] + leaves .directory [event] =
      [event].countP takesDirectory + [event].countP takesHandle -
        ([event].countP freesHandle : Int) := by
  obtain ⟨op, answer⟩ := event
  cases op with
  | fopen path mode => cases answer <;> rfl
  | popen command => cases answer <;> rfl
  | «open» path => cases answer <;> rfl
  | opendir path => cases answer <;> rfl
  | _ => rfl

/-- One event changes the number of handles. -/
theorem total_event (held : Held) (event : Event os) :
    (held.after [event]).total = held.total + [event].countP takesDirectory +
      [event].countP takesHandle - [event].countP freesHandle := by
  have left := leaves_event event
  simp only [Held.total, Held.after]
  omega

section Threads

variable {ι α : Type} [DecidableEq ι]

/-- How many directories were opened. -/
def directoriesOpened (log : List (ι × Event os)) : Nat :=
  log.countP fun entry => takesDirectory entry.2

/-- The handles after a run. -/
theorem total_of_reaches {limit : Int} {start : Held} {programs : ι → Program os α}
    {log : List (ι × Event os)} {config : Held × (ι → Program os α)}
    (run : Reaches (limitedWorld limit) (start, programs) log config) :
    config.1.total = start.total + directoriesOpened log +
      log.countP (fun entry => takesHandle entry.2) -
      log.countP fun entry => freesHandle entry.2 := by
  induction run with
  | start => simp [directoriesOpened]
  | @step log before after entry earlier last ih =>
    obtain @⟨held, onward, pool, thread, op, next, answer, waiting, moves⟩ := last
    have moved : onward = held.after [⟨op, answer⟩] := by
      cases op with
      | opendir path => exact moves.2
      | _ => exact moves
    have event := total_event held ⟨op, answer⟩
    rw [← moved] at event
    simp only [directoriesOpened, List.countP_append, List.countP_singleton] at event ih ⊢
    omega

/-- A step opens a directory only while a handle is left. -/
theorem total_lt_of_takes {limit : Int} {entry : ι × Event os}
    {before after : Held × (ι → Program os α)} (step : Step (limitedWorld limit) before entry after)
    (takes : takesDirectory entry.2 = true) : before.1.total < limit := by
  obtain @⟨held, onward, pool, thread, op, next, answer, waiting, moves⟩ := step
  obtain ⟨path, opened⟩ := opendir_of_takesDirectory takes
  cases opened
  exact moves.1 rfl

variable {limit : Int} {start : Held} {programs : ι → Program os α}
  {log : List (ι × Event os)} {config : Held × (ι → Program os α)}

/-- All directories are still open. -/
theorem directories_le_total (returns : ∀ thread, Returns (programs thread))
    (run : Reaches (limitedWorld limit) (start, programs) log config) :
    start.total + directoriesOpened log ≤ config.1.total := by
  have freed := run.closed_le_opened returns takesHandle_apart
  have total := total_of_reaches run
  omega

/-- No more directories are opened than there were handles left. -/
theorem directories_le_limit (returns : ∀ thread, Returns (programs thread))
    (room : start.total ≤ limit)
    (run : Reaches (limitedWorld limit) (start, programs) log config) :
    start.total + directoriesOpened log ≤ limit := by
  induction run with
  | start => simpa [directoriesOpened] using room
  | @step log before after entry earlier last ih =>
    have count : directoriesOpened (log ++ [entry]) =
        directoriesOpened log + [entry.2].countP takesDirectory := by
      simp only [directoriesOpened, List.countP_append, List.countP_singleton]
    rw [count, List.countP_singleton]
    split
    · -- every directory that is open counts against the limit
      rename_i takes
      have below := directories_le_total returns earlier
      have left := total_lt_of_takes last takes
      omega
    · exact ih

/-- In every interleaving of any number of clients, however the directories change, as many
directories can be opened as the limit leaves handles in the beginning. They all stay open, and
once they use up the limit, the test for directories cannot succeed for any path. -/
theorem directories_run_out (platform : Platform) (self : RjcoreService)
    (clients : ι → Program service α) {limit : Int} {start : Held} {log : List (ι × Event os)}
    {config : Held × (ι → Program os α)}
    (run : Reaches (limitedWorld limit)
      (start, fun client => localClient platform self (clients client)) log config)
    (room : start.total ≤ limit) :
    start.total + directoriesOpened log ≤ limit ∧
      start.total + directoriesOpened log ≤ config.1.total ∧
      (start.total + directoriesOpened log = limit →
        ∀ path after, ¬limitedWorld limit config.1 (.opendir path) true after) := by
  have returns : ∀ client, Returns (localClient platform self (clients client)) := fun client =>
    .through fun call => (returns_discipline platform).invoke self call
  have still_open := directories_le_total returns run
  refine ⟨directories_le_limit returns room run, still_open, fun full path after opened => ?_⟩
  have below := opened.1 rfl
  omega

end Threads

/-- Every path names a directory, and one handle is left. -/
def oneLeft (held : Held) : (op : Op) → op.Answer × Held
  | .opendir path =>
    let opened := directoryTest 1 (fun _ => true) held path
    (opened, held.after [⟨.opendir path, opened⟩])
  | op => (op.uneventful, held.after [⟨op, op.uneventful⟩])

/-- The world allows these answers. -/
theorem oneLeft_allowed (held : Held) (op : Op) :
    limitedWorld 1 held op (oneLeft held op).1 (oneLeft held op).2 := by
  cases op with
  | opendir path =>
    refine ⟨fun opened => ?_, rfl⟩
    simpa only [oneLeft, directoryTest, Bool.true_and, decide_eq_true_eq] using opened
  | _ => exact rfl

/-- Two clients change the mode of a directory, and the second one is told that there is none. -/
theorem directories_run_out_two : ∃ config : Held × (Bool → Program os Bool),
    config.2 false = .done false ∧
      ∀ path after, ¬limitedWorld 1 config.1 (.opendir path) true after := by
  obtain ⟨config, played, refused⟩ : ∃ config, play oneLeft [true, false] []
      (fun _ => 0, fun _ : Bool => localClient (.plain false) lightService
        (.ask (.chmodDir (utf16 "/d") (utf16 "755")) .done : Program service Bool)) =
        some ([(true, ⟨.opendir (ascii "/d"), true⟩),
          (false, ⟨.opendir (ascii "/d"), false⟩)], config) ∧
      config.2 false = .done false := ⟨_, rfl, rfl⟩
  have run := play_reaches oneLeft_allowed _ .start played
  have outcome := directories_run_out (.plain false) lightService _ run (by decide)
  exact ⟨config, refused, outcome.2.2 rfl⟩

end Rjcore
