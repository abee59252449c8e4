import Rjcore.Interaction.Sequence
import Rjcore.Verif.Identity

/-!
# Handles

Open descriptors, streams and directory streams are counted along a run. Every method and
the constructor close each descriptor and each stream they open, and no directory stream.
A service that never opened a directory therefore holds as many handles after any number of
calls as before, and only then.
-/

namespace Rjcore

open Interaction CText

/-- The kinds of handles. -/
inductive Handle
  | descriptor
  | stream
  | directory
  deriving DecidableEq

/-- The handle an event opens. -/
def opens : Event os → Option Handle
  | ⟨.fopen _ _, some _⟩ => some .stream
  | ⟨.popen _, some _⟩ => some .stream
  | ⟨.open _, true⟩ => some .descriptor
  | ⟨.opendir _, true⟩ => some .directory
  | _ => none

/-- The handle an event closes. -/
def closes : Event os → Option Handle
  | ⟨.fclose, _⟩ => some .stream
  | ⟨.pclose, _⟩ => some .stream
  | ⟨.close, _⟩ => some .descriptor
  | _ => none

/-- How many handles of a kind a trace leaves open. -/
def leaves (kind : Handle) (trace : List (Event os)) : Int :=
  trace.countP (fun event => opens event = some kind) -
    trace.countP fun event => closes event = some kind

/-- How many handles of each kind are open. -/
abbrev Held : Type := Handle → Int

/-- The open handles after a trace. -/
def Held.after (held : Held) (trace : List (Event os)) : Held := fun kind => held kind + leaves kind trace

/-- All open handles. -/
def Held.total (held : Held) : Int := held .descriptor + held .stream + held .directory

/-- `opendir(path) != NULL`: the path names a directory and the process may open another
handle. -/
def directoryTest (limit : Int) (isDirectory : Bytes → Bool) (held : Held) (path : Bytes) : Bool :=
  isDirectory path && decide (held.total < limit)

/-- A process with a limit of open handles and an unchanging file system. -/
def handleWorld (limit : Int) (isDirectory : Bytes → Bool) : World os Held
  | held, .opendir path, answer, after =>
    answer = directoryTest limit isDirectory held path ∧ after = held.after [⟨.opendir path, answer⟩]
  | held, op, answer, after => after = held.after [⟨op, answer⟩]

/-- What the service runs: its constructor, and its methods. -/
inductive Entry (platform : Platform) : Program os Unit → Prop
  | construct : Entry platform (do let _ ← RjcoreService.construct platform; pure ())
  | method (self : RjcoreService) (call : Call) :
    Entry platform (do let _ ← self.invoke platform call; pure ())

/-! ## Counting -/

/-- Two traces in order leave what each leaves. -/
theorem leaves_append (kind : Handle) (first second : List (Event os)) :
    leaves kind (first ++ second) = leaves kind first + leaves kind second := by
  simp only [leaves, List.countP_append]
  omega

/-- The world counts what the trace leaves. -/
theorem follows_after {limit : Int} {isDirectory : Bytes → Bool} {held final : Held}
    {steps : List (Held × Event os)}
    (follows : Follows (handleWorld limit isDirectory) held steps final) :
    final = held.after (steps.map Prod.snd) := by
  induction follows with
  | nil held =>
    funext kind
    exact (Int.add_zero _).symm
  | @cons held middle final event rest moves _ ih =>
    have moved : middle = held.after [event] := by
      obtain ⟨op, answer⟩ := event
      cases op with
      | opendir path => exact moves.2
      | _ => exact moves
    rw [ih, moved]
    funext kind
    have parts := leaves_append kind [event] (rest.map Prod.snd)
    rw [List.singleton_append] at parts
    simp only [Held.after, List.map_cons]
    omega

/-- Only directories stay open, as many as were opened. -/
theorem leaves_directory (trace : List (Event os)) :
    leaves .directory trace = trace.countP fun event => opens event = some .directory := by
  have none_closed : trace.countP (fun event => closes event = some .directory) = 0 := by
    rw [List.countP_eq_zero]
    rintro ⟨op, answer⟩ _
    cases op <;> simp [closes]
  rw [leaves, none_closed]
  omega

/-- A trace leaves no directory open exactly when it opened none. -/
theorem leaves_directory_eq_zero_iff (trace : List (Event os)) :
    leaves .directory trace = 0 ↔ ∀ path, (⟨.opendir path, true⟩ : Event os) ∉ trace := by
  rw [leaves_directory, Int.natCast_eq_zero, List.countP_eq_zero]
  constructor
  · intro unopened path member
    exact absurd (unopened _ member) (by simp [opens])
  · rintro unopened ⟨op, answer⟩ member
    cases op with
    | opendir path =>
      cases answer with
      | true => exact absurd member (unopened path)
      | false => simp [opens]
    | fopen path mode => cases answer <;> simp [opens]
    | popen command => cases answer <;> simp [opens]
    | «open» path => cases answer <;> simp [opens]
    | _ => simp [opens]

/-- Every descriptor and every stream is closed again. -/
def Closing {α : Type} (program : Program os α) : Prop :=
  program.Ensures fun trace _ => ∀ kind, kind ≠ .directory → leaves kind trace = 0

namespace Closing

/-- One program after another closes what both open. -/
theorem bind {α β : Type} {program : Program os α} {next : α → Program os β}
    (first : Closing program) (second : ∀ value, Closing (next value)) :
    Closing (program >>= next) :=
  Program.Ensures.bind first fun trace value closed =>
    (second value).mono fun rest result more kind other => by
      rw [leaves_append, closed kind other, more kind other, Int.zero_add]

/-- A quiet operation opens at most a directory. -/
theorem quiet (op : Op) (isQuiet : op.Quiet) : Closing (perform op) := by
  intro answer kind other
  cases op with
  | opendir path => cases answer <;> simp [leaves, opens, closes, Ne.symm other]
  | access | propertyGet | time | statfs | sync | lock | unlock | uninitialized | write => rfl
  | _ => exact isQuiet.elim

/-- The pipe of a command is closed. -/
theorem executeCmd (cmd : Command) (result : Bytes) (size : Nat) :
    Closing (executeCmd cmd result size) := by
  unfold Rjcore.executeCmd
  split
  · exact fun _ _ => rfl
  · intro answer
    cases answer with
    | none => exact fun _ _ => rfl
    | some output =>
      intro _ kind _
      cases kind <;> rfl

/-- Running a command opens nothing. -/
theorem mySystem (cmd : Command) : Closing (mySystem cmd) := by
  unfold Rjcore.mySystem
  split
  · exact fun _ _ => rfl
  · exact fun _ _ _ _ _ => rfl

/-- The device is closed on every path. -/
theorem setDeviceResolution (xres yres refresh flag : Int32) :
    Closing (RjcoreService.setDeviceResolution xres yres refresh flag) := by
  unfold RjcoreService.setDeviceResolution
  split
  · exact fun _ _ => rfl
  split
  · exact fun _ _ => rfl
  split
  · exact fun _ _ => rfl
  split
  · exact fun _ _ => rfl
  intro opened
  cases opened with
  | false => exact fun kind _ => by cases kind <;> rfl
  | true =>
    intro data read
    cases read with
    | none => exact fun _ kind _ => by cases kind <;> rfl
    | some sysData =>
      intro stored
      cases stored with
      | none => exact fun _ kind _ => by cases kind <;> rfl
      | some sysData =>
        intro reread
        cases reread with
        | none => exact fun _ kind _ => by cases kind <;> rfl
        | some sysData => exact fun _ kind _ => by cases kind <;> rfl

/-- Listing the resolutions opens nothing. -/
theorem listResolutions (support : Int32) (indices : List Nat) (res : Bytes) :
    Closing (RjcoreService.listResolutions support indices res) := by
  induction indices generalizing res with
  | nil => exact fun _ _ => rfl
  | cons i rest ih =>
    unfold RjcoreService.listResolutions
    split
    · exact bind (bind (quiet _ trivial) fun _ => fun _ _ => rfl) fun _ => ih _
    · exact ih _

/-- The configuration file is closed on every path. -/
theorem getSupportResolution (platform : Platform) :
    Closing (RjcoreService.getSupportResolution platform) := by
  intro opened
  cases opened with
  | none => exact fun kind _ => by cases kind <;> rfl
  | some file =>
    -- what stands between the two events on the file opens nothing
    have within : ∀ trace : List (Event os), (∀ kind, kind ≠ .directory → leaves kind trace = 0) →
        ∀ kind, kind ≠ .directory →
          leaves kind (⟨.fopen RjcoreService.lcdinfoPath (ascii "rb"), some file⟩ ::
            (trace ++ [⟨.fclose, ()⟩])) = 0 := by
      intro trace closed kind other
      have outer : leaves kind [⟨.fopen RjcoreService.lcdinfoPath (ascii "rb"), some file⟩] +
          leaves kind [⟨.fclose, ()⟩] = 0 := by
        cases kind <;> rfl
      rw [← List.singleton_append, leaves_append, leaves_append, closed kind other]
      omega
    simp only [Program.bind]
    split
    · exact fun _ => within [] fun _ _ => rfl
    · refine Program.Ensures.bind (listResolutions _ _ _) fun trace res closed => ?_
      exact fun _ => within trace closed

/-- Writes into a buffer open nothing. -/
theorem leaves_unboundedWrite (kind : Handle) (sizes : List Nat) :
    leaves kind (sizes.map unboundedWrite) = 0 := by
  induction sizes with
  | nil => rfl
  | cons size rest ih =>
    rw [List.map_cons, ← List.singleton_append, leaves_append, ih]
    rfl

/-- The constructor closes the identity file on every path. -/
theorem construct (platform : Platform) : Closing (RjcoreService.construct platform) := by
  refine construct_ensures.mono fun trace self outcome => ?_
  obtain ⟨opened, rfl, _⟩ := outcome
  intro kind _
  have writes := leaves_unboundedWrite kind (Nand.fileWrites platform opened)
  cases opened with
  | none => rfl
  | some file =>
    have outer : leaves kind [⟨.fopen infoPath (ascii "r+"), some file⟩] +
        leaves kind [⟨.fclose, ()⟩] = 0 := by
      cases kind <;> rfl
    rw [← List.singleton_append, leaves_append, leaves_append, writes, Int.zero_add]
    exact outer

end Closing

/-- Every method closes its descriptors and streams. -/
theorem closing_discipline (platform : Platform) : Discipline platform Closing where
  done _ _ _ := rfl
  bind := Closing.bind
  quiet := Closing.quiet
  executeCmd := Closing.executeCmd
  mySystem := Closing.mySystem
  setDeviceResolution := Closing.setDeviceResolution
  getSupportResolution := Closing.getSupportResolution platform

/-- So does whatever the service runs. -/
theorem Entry.closing {platform : Platform} {program : Program os Unit}
    (entry : Entry platform program) : Closing program := by
  cases entry with
  | construct => exact (Closing.construct platform).bind fun _ _ _ => rfl
  | method self call =>
    exact ((closing_discipline platform).invoke self call).bind fun _ _ _ => rfl

/-! ## Sequences of calls -/

/-- One call keeps the handles exactly when it opened no directory. -/
theorem after_eq_before_iff {platform : Platform} {limit : Int} {isDirectory : Bytes → Bool}
    {execution : Execution os Unit Held} (entry : Entry platform execution.program)
    (valid : execution.Valid (handleWorld limit isDirectory)) :
    execution.after = execution.before ↔
      ∀ path, (⟨.opendir path, true⟩ : Event os) ∉ execution.trace := by
  have closed := Program.ensures_iff.mp entry.closing _ _ valid.runs
  rw [follows_after valid.follows, ← leaves_directory_eq_zero_iff]
  constructor
  · intro same
    have directories := congrFun same .directory
    simp only [Held.after] at directories
    change _ + leaves .directory execution.trace = _ at directories
    omega
  · intro unopened
    funext kind
    change execution.before kind + leaves kind execution.trace = _
    by_cases other : kind = .directory
    · rw [other, unopened, Int.add_zero]
    · rw [closed kind other, Int.add_zero]

/-- Over any sequence of calls, every call returns with the handles it was entered with, and
the test for directories answers in the end as in the beginning, exactly when no call
opened a directory. -/
theorem handles_kept_iff (platform : Platform) (limit : Int) (isDirectory : Bytes → Bool)
    {start final : Held} {executions : List (Execution os Unit Held)}
    (sequence : InSequence (handleWorld limit isDirectory) start executions final)
    (served : ∀ execution ∈ executions, Entry platform execution.program) :
    ((∀ execution ∈ executions, execution.after = execution.before) ∧
        directoryTest limit isDirectory final = directoryTest limit isDirectory start) ↔
      ∀ execution ∈ executions, ∀ path,
        (⟨.opendir path, true⟩ : Event os) ∉ execution.trace := by
  have valid := (sequence.invariant (fun _ => True) trivial fun _ _ _ _ => trivial).2
  constructor
  · rintro ⟨kept, _⟩ execution member
    exact (after_eq_before_iff (served execution member) (valid execution member).1).mp
      (kept execution member)
  · intro unopened
    have kept : ∀ execution ∈ executions, execution.after = execution.before :=
      fun execution member =>
        (after_eq_before_iff (served execution member) (valid execution member).1).mpr
          (unopened execution member)
    have same : final = start :=
      (sequence.invariant (· = start) rfl fun execution member _ before =>
        (kept execution member).trans before).1
    exact ⟨kept, by rw [same]⟩

/-- Every path names a directory, and the day is uneventful otherwise. -/
def onDirectories (held : Held) : (op : Op) → op.Answer × Held
  | .opendir path =>
    let opened := directoryTest 1024 (fun _ => true) held path
    (opened, held.after [⟨.opendir path, opened⟩])
  | op => (op.uneventful, held.after [⟨op, op.uneventful⟩])

/-- The world allows these answers. -/
theorem onDirectories_allowed (held : Held) (op : Op) :
    handleWorld 1024 (fun _ => true) held op (onDirectories held op).1 (onDirectories held op).2 := by
  cases op with
  | opendir path => exact ⟨rfl, rfl⟩
  | _ => exact rfl

/-- Calls of the service on such a day, with nothing open before. -/
def callsOnDirectories (calls : List Call) : List (Execution os Unit Held) :=
  Execution.respondAll onDirectories (fun _ => 0) (calls.map fun call => do
    let _ ← RjcoreService.invoke (.plain false) ⟨false, [], [], [], []⟩ call
    pure ())

/-- The calls are a sequence. -/
theorem callsOnDirectories_sequence (calls : List Call) :
    (∃ final, InSequence (handleWorld 1024 fun _ => true) (fun _ => 0)
        (callsOnDirectories calls) final) ∧
      ∀ execution ∈ callsOnDirectories calls, Entry (.plain false) execution.program := by
  obtain ⟨sequence, programs⟩ := Execution.respondAll_inSequence onDirectories_allowed (fun _ => 0)
    (calls.map fun call => do
      let _ ← RjcoreService.invoke (.plain false) ⟨false, [], [], [], []⟩ call
      pure ())
  refine ⟨sequence, fun execution member => ?_⟩
  have program : execution.program ∈ _ := List.mem_map_of_mem member
  rw [callsOnDirectories, programs] at program
  obtain ⟨call, _, same⟩ := List.mem_map.mp program
  rw [← same]
  exact .method _ call

/-- Three calls of which each opens handles. -/
def openingCalls : List Call :=
  [.setDeviceResolution 800 600 60 1, .getSupportResolution, .isProcessRunning (utf16 "sh")]

/-- Calls that open the device, a file and a pipe keep the handles. -/
theorem handles_kept_openingCalls :
    ((callsOnDirectories openingCalls).map fun execution => execution.trace.filterMap opens) =
        [[.descriptor], [.stream], [.stream]] ∧
      ∃ final, InSequence (handleWorld 1024 fun _ => true) (fun _ => 0)
          (callsOnDirectories openingCalls) final ∧
        (((∀ execution ∈ callsOnDirectories openingCalls, execution.after = execution.before) ∧
            directoryTest 1024 (fun _ => true) final =
              directoryTest 1024 (fun _ => true) fun _ => 0) ↔
          ∀ execution ∈ callsOnDirectories openingCalls, ∀ path,
            (⟨.opendir path, true⟩ : Event os) ∉ execution.trace) := by
  obtain ⟨⟨final, sequence⟩, served⟩ := callsOnDirectories_sequence openingCalls
  exact ⟨by decide, final, sequence,
    handles_kept_iff (.plain false) 1024 (fun _ => true) sequence served⟩

/-- A request to remove a directory leaves the directory open. -/
theorem not_handles_kept :
    ¬∀ (platform : Platform) (limit : Int) (isDirectory : Bytes → Bool) (start final : Held)
      (executions : List (Execution os Unit Held)),
      InSequence (handleWorld limit isDirectory) start executions final →
        (∀ execution ∈ executions, Entry platform execution.program) →
          ∀ execution ∈ executions, execution.after = execution.before := by
  intro kept
  obtain ⟨⟨final, sequence⟩, served⟩ := callsOnDirectories_sequence [.rmFile (utf16 "/data")]
  have same := kept _ _ _ _ _ _ sequence served _ List.mem_cons_self
  exact absurd (congrFun same .directory) (by decide)

end Rjcore
