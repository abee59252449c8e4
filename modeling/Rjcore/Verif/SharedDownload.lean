import Rjcore.Interaction.Atomic
import Rjcore.Service.Footprint
import Rjcore.Verif.Bandwidth

/-!
# Concurrent measurements

The threads of the server call `checkBandwidth_block` at the same time, and every call downloads
to the same file. The whole call runs under `sNetLock`, so the calls are serial, whatever the
commands do. On days on which in addition every measurement prints something and every removal
succeeds, each call finds no file, measures only what it downloaded itself and leaves no file,
whatever the other threads do.
-/

namespace Rjcore

open Interaction CText RjcoreService

/-- What clients ask for: the bandwidth to an address, as a user with a code. -/
def measuring : Signature := ⟨String16 × String16 × String16, fun _ => String16⟩

/-- The method that serves them. -/
def serveBandwidth (platform : Platform) (request : measuring.Op) :
    Program os (measuring.Answer request) :=
  checkBandwidth_block platform request.1 request.2.1 request.2.2

/-- `sNetLock` begins and ends a section. -/
def netSection : (op : os.Op) → os.Answer op → SectionEvent
  | .lock .sNetLock, _ => .enters
  | .unlock .sNetLock, _ => .leaves
  | _, _ => .inside

/-- What an operation does to the downloaded file: any command but the measurement may write it,
and a removal that does not succeed may leave it. -/
def downloadedFile : World os Download
  | state, .system command, status, after =>
    if command = removeCommand then
      after = ⟨state.call, none⟩ ∨ status ≠ .exited 0 ∧ after = state
    else after = state
  | state, op, answer, after => downloadWorld state op answer after

/-- A removal that succeeds is one of these. -/
theorem downloadedFile_of_download {state after : Download} {op : Op} {answer : op.Answer}
    (moves : downloadWorld state op answer after) : downloadedFile state op answer after := by
  cases op with
  | system command =>
    change if command = removeCommand then _ else _ at moves
    change if command = removeCommand then _ else _
    split at moves
    · rename_i removal
      rw [if_pos removal]
      exact .inl moves.2
    · rename_i other
      rw [if_neg other]
      exact moves
  | _ => exact moves

/-- A measurement prints something, and a removal succeeds. -/
def Clean : Event os → Prop
  | ⟨.popen command, answer⟩ => command = sizeCommand → ¬Blank answer
  | ⟨.system command, status⟩ => command = removeCommand → status = .exited 0
  | _ => True

instance (event : Event os) : Decidable (Clean event) := by
  unfold Clean Blank
  split <;> infer_instance

/-- The file on days on which every event is clean. -/
def cleanFile : World os Download := fun state op answer after =>
  downloadedFile state op answer after ∧ Clean ⟨op, answer⟩

/-- On such days every removal removes the file. -/
theorem cleanFile_download {state after : Download} {op : Op} {answer : op.Answer}
    (moves : cleanFile state op answer after) : downloadWorld state op answer after := by
  obtain ⟨file, clean⟩ := moves
  cases op with
  | system command =>
    change if command = removeCommand then _ else _ at file
    change if command = removeCommand then _ else _
    split at file
    · rename_i removal
      have succeeded : answer = .exited 0 := clean removal
      rw [if_pos removal]
      exact ⟨succeeded, file.resolve_right fun failed => failed.1 succeeded⟩
    · rename_i other
      rw [if_neg other]
      exact file
  | _ => exact file

/-- The lock and the file. -/
def sharedDownload (file : World os Download) : World os (Bool × Download) :=
  fun state op answer after => file state.2 op answer after.2 ∧
    match netSection op answer with
    | .enters => state.1 = false ∧ after.1 = true
    | .leaves => after.1 = false
    | _ => after.1 = state.1

/-- The lock guards the section. -/
theorem sharedDownload_guards (file : World os Download) :
    Guards netSection (sharedDownload file) Prod.fst where
  enters := by
    intro state op answer after does moves
    have flag := moves.2
    rwa [does] at flag
  refused := by
    intro state op answer after does
    unfold netSection at does
    split at does <;> contradiction
  inside := by
    intro state op answer after does moves
    have flag := moves.2
    rwa [does] at flag
  leaves := by
    intro state op answer after does moves
    have flag := moves.2
    rwa [does] at flag

/-- Every call is one section. -/
theorem serveBandwidth_sectioned (platform : Platform) (request : measuring.Op) :
    Sectioned netSection (serveBandwidth platform request) := by
  have body : (bandwidth platform request.1 request.2.1 request.2.2).Asks
      fun op : os.Op => ∀ answer, netSection op answer = .inside := by
    refine (bandwidth_uses platform _ _ _).mono fun op listed answer => ?_
    unfold netSection
    split
    · exact absurd listed (by decide)
    · exact absurd listed (by decide)
    · rfl
  intro answer
  refine ⟨.inside, rfl, (obeys_inside body).bind fun phase value inside => ?_⟩
  subst inside
  exact fun _ => ⟨.over, rfl, rfl⟩

/-- A call on its own. -/
def wholeCall (platform : Platform) : World measuring Download :=
  atomically downloadedFile (serveBandwidth platform)

/-- A call on its own that finds no file and leaves none, and whose result stands for the file that
the call itself downloaded. -/
def ownDownload (platform : Platform) : World measuring Download :=
  fun state request value after => state.writer = none ∧ after.writer = none ∧
    ∃ steps, (serveBandwidth platform request).Runs (steps.map Prod.snd) value ∧
      Follows downloadedFile state steps after ∧ (value ≠ [] → MeasuresOwn steps)

section Calls

variable {platform : Platform}

/-- Such a call is one of the calls. -/
theorem wholeCall_of_ownDownload {state after : Download} {request : measuring.Op}
    {value : measuring.Answer request} (own : ownDownload platform state request value after) :
    wholeCall platform state request value after := by
  obtain ⟨_, _, steps, runs, follows, _⟩ := own
  exact ⟨steps, runs, follows⟩

/-- No measurement of a trace of clean events is blank. -/
theorem cleanFile_measures {state after : Download} {steps : List (Download × Event os)}
    (follows : Follows cleanFile state steps after) : Measures (steps.map Prod.snd) := by
  induction follows with
  | nil state => exact fun _ member => absurd member List.not_mem_nil
  | cons moves _ ih =>
    intro answer member
    rcases List.mem_cons.mp member with rfl | rest
    · exact moves.2 rfl
    · exact ih answer rest

/-- The steps of a whole section, without the lock. -/
theorem atomically_file {file : World os Download} {state after : Bool × Download}
    {request : measuring.Op} {value : measuring.Answer request}
    (step : atomically (sharedDownload file) (serveBandwidth platform) state request value after) :
    atomically file (serveBandwidth platform) state.2 request value after.2 := by
  obtain ⟨steps, runs, follows⟩ := step
  have plain := follows.simulate Prod.snd fun _ _ _ _ moves => moves.1
  refine ⟨_, ?_, plain⟩
  rw [List.map_map]
  exact runs

/-- A call of clean events that finds no file. -/
theorem ownDownload_of_clean {state after : Download} {request : measuring.Op}
    {value : measuring.Answer request}
    (step : atomically cleanFile (serveBandwidth platform) state request value after)
    (absent : state.writer = none) : ownDownload platform state request value after := by
  obtain ⟨steps, runs, follows⟩ := step
  have same : steps.map (fun step => (id step.1, step.2)) = steps := List.map_id steps
  have loaded : Follows downloadWorld state _ after :=
    follows.simulate id fun _ _ _ _ => cleanFile_download
  have plain : Follows downloadedFile state _ after :=
    follows.simulate id fun _ _ _ _ moves => moves.1
  rw [same] at loaded plain
  have outcome : CallOutcome steps value after :=
    (checkBandwidth_within platform request.1 request.2.1 request.2.2 absent).run runs loaded
  exact ⟨absent, outcome.gone_iff.mpr (cleanFile_measures follows), steps, runs, plain, outcome.own⟩

variable {ι α : Type} [DecidableEq ι] {clients : ι → Program measuring α} {start : Download}

/-- The serial run of an interleaving: every call is a step, the calls come in the order in which
they free the lock, the clients have the same results, and while the lock is free the file and the
clients are where the serial run has left them. -/
structure SerialRun (platform : Platform) (calls : List (ι × Event measuring))
    (serial : Download × (ι → Program measuring α)) (log : List (ι × Event os))
    (config : (Bool × Download) × (ι → Program os α)) : Prop where
  order : calls.map Prod.fst = (log.filter (closing netSection)).map Prod.fst
  results : ∀ client value, config.2 client = .done value ↔ serial.2 client = .done value
  settled : config.1.1 = false → config.1.2 = serial.1 ∧
    ∀ client, config.2 client = (serial.2 client).through (serveBandwidth platform)

/-- An interleaving has a serial run, whatever operations do to the file. -/
theorem serialRun_of_reaches {file : World os Download} {log : List (ι × Event os)}
    {config : (Bool × Download) × (ι → Program os α)}
    (run : Reaches (sharedDownload file) ((false, start), fun client =>
      (clients client).through (serveBandwidth platform)) log config) :
    ∃ calls serial, Reaches (atomically file (serveBandwidth platform)) (start, clients)
      calls serial ∧ SerialRun platform calls serial log config := by
  have sectioned := serveBandwidth_sectioned platform
  have every : ∀ client, (clients client).Asks
      fun request => Sectioned netSection (serveBandwidth platform request) :=
    fun client => .of_forall sectioned
  obtain ⟨calls, serial, reached, order, asks, stands⟩ :=
    run.serial (sharedDownload_guards file) rfl every
  obtain ⟨_, plain⟩ := reached.simulate Prod.snd (fun _ => True) trivial
    fun _ _ _ _ _ step => ⟨trivial, atomically_file step⟩
  refine ⟨calls, _, plain, order, stands.finished_iff asks, fun free =>
    ⟨?_, stands.threads_settled free⟩⟩
  rw [stands.settled free]

/-- In every interleaving of any number of clients the calls are serial, in the order in which
they free the lock. When there was no file in the beginning, no measurement was blank and every
removal has succeeded, each call measures its own download and there is no file while the lock
is free. -/
theorem concurrent_measurements (platform : Platform) (clients : ι → Program measuring α)
    (start : Download) {log : List (ι × Event os)}
    {config : (Bool × Download) × (ι → Program os α)}
    (run : Reaches (sharedDownload downloadedFile) ((false, start), fun client =>
      (clients client).through (serveBandwidth platform)) log config) :
    ∃ calls serial, SerialRun platform calls serial log config ∧
      Reaches (wholeCall platform) (start, clients) calls serial ∧
      (start.writer = none → (∀ entry ∈ log, Clean entry.2) →
        Reaches (ownDownload platform) (start, clients) calls serial ∧
          (config.1.1 = false → config.1.2.writer = none)) := by
  by_cases sound : start.writer = none ∧ ∀ entry ∈ log, Clean entry.2
  · obtain ⟨absent, clean⟩ := sound
    have cleanRun : Reaches (sharedDownload cleanFile) _ log config :=
      run.narrow fun entry member _ _ moves => ⟨⟨moves.1, clean entry member⟩, moves.2⟩
    obtain ⟨calls, serial, reached, same⟩ := serialRun_of_reaches cleanRun
    have own : serial.1.writer = none ∧
        Reaches (ownDownload platform) (start, clients) calls serial :=
      reached.simulate id (fun state => state.writer = none) absent fun _ _ _ _ before step =>
        have single := ownDownload_of_clean step before
        ⟨single.2.1, single⟩
    obtain ⟨gone, own⟩ := own
    have whole : True ∧ Reaches (wholeCall platform) (start, clients) calls serial :=
      own.simulate id (fun _ => True) trivial fun _ _ _ _ _ step =>
        ⟨trivial, wholeCall_of_ownDownload step⟩
    exact ⟨calls, serial, same, whole.2, fun _ _ => ⟨own, fun free => by
      rwa [(same.settled free).1]⟩⟩
  · obtain ⟨calls, serial, reached, same⟩ := serialRun_of_reaches run
    exact ⟨calls, serial, same, reached, fun absent clean => absurd ⟨absent, clean⟩ sound⟩

end Calls

/-- A day on which every download arrives and every measurement prints a size. -/
def sharedDay (state : Bool × Download) (op : Op) : op.Answer × (Bool × Download) :=
  let answered := eachCall (fun _ => true) (fun _ => ascii "5.0M\n") state.2 op
  (answered.1, match netSection op answered.1 with
    | .enters => true
    | .leaves => false
    | _ => state.1, answered.2)

/-- The lock is free when it is taken. -/
def sharedAble (state : Bool × Download) (op : Op) : Bool := op != .lock .sNetLock || !state.1

/-- Such a day is one of the lock and the file. -/
theorem sharedDay_allowed (state : Bool × Download) (op : Op) (able : sharedAble state op = true) :
    sharedDownload downloadedFile state op (sharedDay state op).1 (sharedDay state op).2 := by
  have free : netSection op (sharedDay state op).1 = .enters → state.1 = false := by
    unfold netSection
    split
    · exact fun _ => by simpa [sharedAble] using able
    · exact nofun
    · exact nofun
  have file := eachCall_allowed (fun _ => true) (fun _ => ascii "5.0M\n") state.2 op
  refine ⟨downloadedFile_of_download file, ?_⟩
  cases does : netSection op (sharedDay state op).1 with
  | enters => exact ⟨free does, by rw [sharedDay] at does ⊢; simp only [does]⟩
  | refused => rw [sharedDay] at does ⊢; simp only [does]
  | inside => rw [sharedDay] at does ⊢; simp only [does]
  | leaves => rw [sharedDay] at does ⊢; simp only [does]

/-- A client that measures once. -/
def measureOnce : Program measuring String16 := .ask (utf16 "10.0.0.1", [], []) .done

/-- One client measures, and then the other one begins to. -/
theorem concurrent_measurements_two :
    ∃ (calls : List (Bool × Event measuring))
      (serial : Download × (Bool → Program measuring String16)),
      Reaches (ownDownload (.plain false)) (⟨0, none⟩, fun _ => measureOnce) calls serial ∧
        calls.map Prod.fst = [true] := by
  obtain ⟨log, config, played, closed, clean⟩ : ∃ log config, play sharedDay
      (List.replicate 13 true ++ [false]) [] ((false, ⟨0, none⟩),
        fun _ => measureOnce.through (serveBandwidth (.plain false))) = some (log, config) ∧
      (log.filter (closing netSection)).map Prod.fst = [true] ∧
      ∀ entry ∈ log, Clean entry.2 := ⟨_, _, rfl, by decide, by decide⟩
  have run := play_reaches_able sharedDay_allowed _ .start (by decide) played
  obtain ⟨calls, serial, same, _, sound⟩ :=
    concurrent_measurements (.plain false) (fun _ => measureOnce) ⟨0, none⟩ run
  exact ⟨calls, serial, (sound rfl clean).1, same.order.trans closed⟩

end Rjcore
