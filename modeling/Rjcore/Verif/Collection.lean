import Rjcore.Interaction.Exclusion
import Rjcore.Interaction.Interleaving
import Rjcore.Verif.ArchiveName

/-!
# Collecting logs

Every call of `collectLogFiles_block` writes the same archive and then moves it to a name of
its own. A call is inside from the moment it takes `sLockLog` until it frees it, on whichever
path it returns, and it runs both commands inside. So the archive that a call moves is the
one it wrote. Where it arrives is up to the shell: names that are not quoted, are cut off by the
buffer, or have slashes may lead two calls with different names to the same place.
-/

namespace Rjcore

open Interaction CText RjcoreService Files

/-- The command line that writes the archive. -/
def tarLine : Bytes := tarCommand.line

/-- How a command line begins that moves the archive. -/
def movePrefix : Bytes := ascii "mv /sdcard/localhost.tar.gz "

/-- A command line that moves the archive. -/
def Moves (line : Bytes) : Prop := movePrefix <+: line

instance (line : Bytes) : Decidable (Moves line) := inferInstanceAs (Decidable (_ <+: _))

/-- The command that moves the archive does not write it. -/
theorem moves_ne_tar {line : Bytes} (moves : Moves line) : line ≠ tarLine := by
  rintro rfl
  exact absurd moves (by decide)

/-- A call moves the archive, whatever name it is given. -/
theorem mvCommand_moves (name : Bytes) : Moves (mvCommand name).line := by
  rw [Moves, Command.line, snprintf, List.prefix_take_iff]
  refine ⟨?_, show movePrefix.length ≤ size1K - 1 by decide⟩
  have front : movePrefix <+: ascii "mv /sdcard/localhost.tar.gz /sdcard/" := by decide
  exact front.trans (List.prefix_append _ _)

/-- The lock of the collections; commands succeed. -/
def lockWorld : World os Bool
  | held, .lock .sLockLog, _, after => held = false ∧ after = true
  | _, .unlock .sLockLog, _, after => after = false
  | held, .system _, status, after => status = .exited 0 ∧ after = held
  | held, _, _, after => after = held

/-! ## What a call does -/

/-- Where a call stands. -/
inductive CollectPhase
  | outside
  | holding
  /-- The archive is written. -/
  | archived
  /-- The archive is moved. -/
  | moved
  | finished (moved : Bool)
  deriving DecidableEq

/-- The lock is taken and not freed. -/
def CollectPhase.Inside : CollectPhase → Prop
  | .outside | .finished _ => False
  | .holding | .archived | .moved => True

/-- The order of the events of a call that moves the archive by this command line. -/
def collectMonitor (own : Bytes) : Monitor os CollectPhase
  | .outside, .lock .sLockLog, _ => some .holding
  | .holding, .system command, _ =>
    if command.line = tarLine then some .archived
    else if Moves command.line then none else some .holding
  | .archived, .system command, _ => if command.line = own then some .moved else none
  | .holding, .unlock .sLockLog, _ | .archived, .unlock .sLockLog, _ => some (.finished false)
  | .moved, .unlock .sLockLog, _ => some (.finished true)
  | _, .system _, _ => none
  | _, .lock _, _ => none
  | _, .unlock _, _ => none
  | phase, _, _ => some phase

section Obeys

variable {platform : Platform} {own : Bytes} {phase : CollectPhase}

/-- An operation that is not a command and not about a lock leaves a call where it is. -/
def Incidental : Op → Prop
  | .system _ | .lock _ | .unlock _ => False
  | _ => True

/-- Such an operation is expected everywhere. -/
theorem incidental_accepted {op : Op} (incidental : Incidental op) (answer : op.Answer) :
    collectMonitor own phase op answer = some phase := by
  cases op <;> first | exact incidental.elim | (cases phase <;> rfl)

/-- An operation of this kind by itself. -/
theorem perform_obeys {op : Op} (incidental : Incidental op) :
    (perform op).Obeys (collectMonitor own) phase fun after _ => after = phase :=
  fun answer => ⟨phase, incidental_accepted incidental answer, rfl⟩

/-- `mySystem` goes where its command leads. -/
theorem mySystem_obeys {cmd : Command} {after : CollectPhase} (command : cmd.line ≠ [])
    (leads : ∀ status, collectMonitor own phase (.system cmd) status = some after) :
    (mySystem cmd).Obeys (collectMonitor own) phase fun final _ => final = after := by
  rw [mySystem, if_neg command]
  intro saved
  refine ⟨phase, @incidental_accepted own phase (.signal .default) trivial saved, fun status => ?_⟩
  refine ⟨after, leads status, fun restored => ?_⟩
  exact ⟨after, @incidental_accepted own after (.signal saved) trivial restored, rfl⟩

/-- A command that begins otherwise neither writes nor moves the archive. -/
theorem other_command {cmd : Command} {byte : UInt8} (first : cmd.line.head? = some byte)
    (other : byte ≠ 116 ∧ byte ≠ 109) (status : WaitStatus) :
    collectMonitor own .holding (.system cmd) status = some .holding := by
  have notTar : cmd.line ≠ tarLine := by
    intro same
    rw [same, show tarLine.head? = some 116 by decide] at first
    exact other.1 (Option.some.inj first).symm
  have notMove : ¬Moves cmd.line := by
    rintro ⟨rest, whole⟩
    rw [← whole] at first
    exact other.2 (Option.some.inj first).symm
  exact (if_neg notTar).trans (if_neg notMove)

/-- `executeCmd` leaves a call where it is. -/
theorem executeCmd_obeys (cmd : Command) (result : Bytes) (size : Nat) :
    (executeCmd cmd result size).Obeys (collectMonitor own) phase fun after _ => after = phase := by
  unfold executeCmd
  split
  · exact rfl
  · intro answer
    refine ⟨phase, @incidental_accepted own phase (.popen cmd) trivial answer, ?_⟩
    cases answer with
    | none => exact rfl
    | some output => exact fun _ => ⟨phase, @incidental_accepted own phase .pclose trivial (), rfl⟩

/-- `checkFileMode` leaves a call where it is. -/
theorem checkFileMode_obeys (path mode : Bytes) (modeLen : Nat) :
    (checkFileMode path mode modeLen).Obeys (collectMonitor own) phase
      fun after _ => after = phase := by
  unfold checkFileMode
  split
  · exact (executeCmd_obeys _ _ _).bind fun after _ same => same
  · split
    · exact (executeCmd_obeys _ _ _).bind fun after _ same => same
    · exact rfl

/-- `chmodDir` leaves a call where it is. -/
theorem chmodDir_obeys (path mode : String16) :
    (chmodDir platform path mode).Obeys (collectMonitor own) .holding
      fun after _ => after = .holding := by
  unfold chmodDir
  split
  · exact rfl
  · refine Program.Obeys.bind (perform_obeys trivial) fun after opened same => ?_
    subst same
    cases opened with
    | false => exact rfl
    | true =>
      have begins : (Command.printf size1K "chmod -R %s %s"
          [.client (platform.string mode), .client (platform.string path)]).line.head? =
            some 99 := Command.line_head? rfl (show 1 < size1K by decide)
      have command := mySystem_obeys (Command.printf_line_ne_nil rfl (by decide) (by decide))
        (@other_command own _ 99 begins (by decide))
      refine command.bind fun after ret same => ?_
      subst same
      split
      · exact rfl
      · exact checkFileMode_obeys _ _ _

/-- Inside, a call moves the archive it wrote before it returns `true`. -/
def Collected (phase : CollectPhase) (value : Bool) : Prop :=
  phase.Inside ∧ (value = true → phase = .moved)

/-- The archive is written inside. -/
theorem tar_accepted (status : WaitStatus) :
    collectMonitor own .holding (.system tarCommand) status = some .archived := by
  change (if tarCommand.line = tarLine then some CollectPhase.archived
    else if Moves tarCommand.line then none else some CollectPhase.holding) = _
  exact if_pos rfl

/-- The commands of the archive are run in order. -/
theorem archiveLogs_obeys (zipFilename : String16) :
    (archiveLogs platform zipFilename).Obeys
      (collectMonitor (mvCommand (platform.string zipFilename)).line) .holding Collected := by
  have failed : ∀ phase : CollectPhase, phase.Inside → Collected phase false := fun _ inside =>
    ⟨inside, fun success => absurd success Bool.false_ne_true⟩
  refine Program.Obeys.bind (perform_obeys trivial) fun after found same => ?_
  subst same
  cases found with
  | false => exact failed .holding trivial
  | true =>
    refine Program.Obeys.bind (perform_obeys trivial) fun after found same => ?_
    subst same
    cases found with
    | false => exact failed .holding trivial
    | true =>
      have tar := @mySystem_obeys (mvCommand (platform.string zipFilename)).line .holding tarCommand
        .archived (by decide) fun status => tar_accepted status
      refine Program.Obeys.bind tar fun after ret same => ?_
      subst same
      split
      · exact failed .archived trivial
      · have move := @mySystem_obeys (mvCommand (platform.string zipFilename)).line .archived
          (mvCommand (platform.string zipFilename)) .moved
          (Command.printf_line_ne_nil rfl (by decide) (by decide)) fun status => if_pos rfl
        refine Program.Obeys.bind move fun after ret same => ?_
        subst same
        split
        · exact failed .moved trivial
        · exact fun _ => ⟨.moved, rfl, trivial, fun _ => rfl⟩

/-- Everything under the lock stays inside. -/
theorem collectLogs_obeys (zipFilename : String16) :
    (collectLogs platform zipFilename).Obeys
      (collectMonitor (mvCommand (platform.string zipFilename)).line) .holding Collected := by
  have failed : Collected .holding false :=
    ⟨trivial, fun success => absurd success Bool.false_ne_true⟩
  have literal : ∀ text : String, (Command.literal text).line ≠ [] ∧
      (Command.literal text).line ≠ tarLine ∧ ¬Moves (Command.literal text).line →
      (mySystem (.literal text)).Obeys
        (collectMonitor (mvCommand (platform.string zipFilename)).line) .holding
          fun after _ => after = .holding := by
    intro text other
    obtain ⟨command, notTar, notMove⟩ := other
    exact mySystem_obeys command fun status => (if_neg notTar).trans (if_neg notMove)
  refine Program.Obeys.bind (literal "save_systeminfo" (by decide)) fun after ret same => ?_
  subst same
  split
  · exact failed
  · refine Program.Obeys.bind (perform_obeys trivial) fun after found same => ?_
    subst same
    cases found with
    | false => exact failed
    | true =>
      refine Program.Obeys.bind (perform_obeys trivial) fun after found same => ?_
      subst same
      cases found with
      | true => exact archiveLogs_obeys zipFilename
      | false =>
        refine Program.Obeys.bind
          (literal "mkdir /data/tombstones" (by decide)) fun after ret same => ?_
        subst same
        split
        · exact failed
        · refine Program.Obeys.bind (chmodDir_obeys _ _) fun after changed same => ?_
          subst same
          cases changed with
          | false => exact failed
          | true => exact archiveLogs_obeys zipFilename

/-- How a call ends: without the lock, or after it has freed the lock. -/
def Ended (phase : CollectPhase) (value : Bool) : Prop :=
  phase = .outside ∧ value = false ∨ ∃ moved, phase = .finished moved ∧ (value = true → moved = true)

/-- A call takes the lock, runs its commands in order and frees the lock. -/
theorem collectLogFiles_obeys (zipFilename : String16) :
    (collectLogFiles_block platform zipFilename).Obeys
      (collectMonitor (mvCommand (platform.string zipFilename)).line) .outside Ended := by
  unfold collectLogFiles_block
  split
  · exact .inl ⟨rfl, rfl⟩
  · split
    · exact .inl ⟨rfl, rfl⟩
    · intro _
      refine ⟨.holding, rfl, ?_⟩
      change Program.Obeys _ (collectLogs platform zipFilename >>= _) _ _
      refine (collectLogs_obeys zipFilename).bind fun phase value collected => ?_
      obtain ⟨inside, success⟩ := collected
      intro _
      cases phase with
      | outside => exact inside.elim
      | finished moved => exact inside.elim
      | holding =>
        exact ⟨.finished false, rfl, .inr ⟨false, rfl, fun yes => absurd (success yes) (by decide)⟩⟩
      | archived =>
        exact ⟨.finished false, rfl, .inr ⟨false, rfl, fun yes => absurd (success yes) (by decide)⟩⟩
      | moved => exact ⟨.finished true, rfl, .inr ⟨true, rfl, fun _ => rfl⟩⟩

end Obeys

/-! ## The archives -/

/-- The calls whose archives stand at the places of a file system. -/
abbrev Archives (ι : Type) : Type := List Bytes → Option ι

/-- Where `tar` leaves the archive. -/
def archivePlace : List Bytes := place (ascii "/sdcard/localhost.tar.gz")

/-- The place of a file name in `/sdcard`. -/
def namePlace (name : Bytes) : List Bytes := place (ascii "/sdcard/" ++ name)

section Archives

variable {ι : Type} (dialect : Shell.Dialect) (isDirectory : List Bytes → Bool)
  (misread : Bytes → Archives ι → Archives ι)

/-- Where a command line moves the archive, when the shell reads it as `mv` of the archive with one
other operand. -/
def destination (line : Bytes) : Option (List Bytes) :=
  match Shell.lexemes dialect line with
  | some [.word command, .word source, .word target] =>
    if command = ascii "mv" ∧ source = ascii "/sdcard/localhost.tar.gz" then
      -- a directory takes the archive in
      some (if isDirectory (place target) then place target ++ [archiveName.bytes]
        else place target)
    else none
  | _ => none

/-- What an event of a thread does to the archives; `misread` is what a line does that is meant to
move the archive and that the shell reads in another way. -/
def Archives.after (files : Archives ι) (thread : ι) (event : Event os) : Archives ι :=
  match event.op with
  | .system command =>
    if command.line = tarLine then Function.update files archivePlace (some thread)
    else if Moves command.line then
      match destination dialect isDirectory command.line with
      | some target =>
        Function.update (Function.update files archivePlace none) target (files archivePlace)
      | none => misread command.line files
    else files
  | _ => files

/-- The archives after a log. -/
def archivesAfter (log : List (ι × Event os)) : Archives ι :=
  log.foldl (fun files entry => files.after dialect isDirectory misread entry.1 entry.2)
    fun _ => none

/-- One more event. -/
theorem archivesAfter_concat (log : List (ι × Event os)) (thread : ι) (event : Event os) :
    archivesAfter dialect isDirectory misread (log ++ [(thread, event)]) =
      (archivesAfter dialect isDirectory misread log).after dialect isDirectory misread
        thread event := by
  simp only [archivesAfter, List.foldl_append, List.foldl_cons, List.foldl_nil]

variable {dialect isDirectory misread} {admitted : ι → Prop} {target : ι → List Bytes}
  {held : Bool} {phase : ι → CollectPhase} {files : Archives ι}

/-- The calls exclude each other, the archive is that of the call that will move it, and every
file of a call is its own archive. -/
structure Unmixed (admitted : ι → Prop) (target : ι → List Bytes) (held : Bool)
    (phase : ι → CollectPhase) (files : Archives ι) : Prop where
  /-- The lock is held exactly by the call inside. -/
  exclusive : Exclusive CollectPhase.Inside held phase
  /-- The archive was written by the call that has not moved it yet. -/
  archive : ∀ thread, phase thread = .archived → files archivePlace = some thread
  /-- A call that has moved its archive finds it under its name. -/
  kept : ∀ thread, phase thread = .moved ∨ phase thread = .finished true →
    admitted thread ∧ files (target thread) = some thread
  /-- Nothing else stands under the name of a call. -/
  own : ∀ thread writer, admitted thread → files (target thread) = some writer → writer = thread

/-- What one step does to the lock, to the phase of its thread and to the archives. -/
inductive CollectStep (target : List Bytes) (thread : ι) :
    Bool → CollectPhase → Archives ι → Bool → CollectPhase → Archives ι → Prop
  | stay {held : Bool} {phase : CollectPhase} {files : Archives ι} :
      CollectStep target thread held phase files held phase files
  | enter {files : Archives ι} :
      CollectStep target thread false .outside files true .holding files
  | tar {held : Bool} {files : Archives ι} : CollectStep target thread held .holding files
      held .archived (Function.update files archivePlace (some thread))
  | move {held : Bool} {files : Archives ι} : CollectStep target thread held .archived files
      held .moved (Function.update (Function.update files archivePlace none) target
        (files archivePlace))
  | leave {held : Bool} {phase : CollectPhase} {files : Archives ι} (inside : phase.Inside) :
      CollectStep target thread held phase files false (.finished (phase = .moved)) files

/-- Every step is one of these. -/
theorem collectStep_of_accepted {own : Bytes} {target : List Bytes} {thread : ι}
    {held after : Bool} {phase next : CollectPhase} {files : Archives ι} {event : Event os}
    (moves : Moves own) (reads : destination dialect isDirectory own = some target)
    (accepted : collectMonitor own phase event.op event.answer = some next)
    (allowed : lockWorld held event.op event.answer after) :
    CollectStep target thread held phase files after next
      (files.after dialect isDirectory misread thread event) := by
  obtain ⟨op, answer⟩ := event
  cases op with
  | system command =>
    obtain ⟨_, rfl⟩ := allowed
    cases phase with
    | holding =>
      change (if command.line = tarLine then some CollectPhase.archived
        else if Moves command.line then none else some CollectPhase.holding) = some next at accepted
      by_cases tar : command.line = tarLine
      · rw [if_pos tar] at accepted
        cases accepted
        simp only [Archives.after, if_pos tar]
        exact .tar
      · rw [if_neg tar] at accepted
        by_cases move : Moves command.line
        · rw [if_pos move] at accepted
          contradiction
        · rw [if_neg move] at accepted
          cases accepted
          simp only [Archives.after, if_neg tar, if_neg move]
          exact .stay
    | archived =>
      change (if command.line = own then some CollectPhase.moved else none) = some next at accepted
      by_cases same : command.line = own
      · rw [if_pos same] at accepted
        cases accepted
        subst same
        simp only [Archives.after, if_neg (moves_ne_tar moves), if_pos moves, reads]
        exact .move
      · rw [if_neg same] at accepted
        contradiction
    | outside => cases accepted
    | moved => cases accepted
    | finished moved => cases accepted
  | lock mutex =>
    cases mutex with
    | sLockLog =>
      obtain ⟨rfl, rfl⟩ := allowed
      cases phase <;> cases accepted
      exact .enter
    | sNetLock => cases phase <;> cases accepted
  | unlock mutex =>
    cases mutex with
    | sLockLog =>
      obtain rfl : after = false := allowed
      cases phase <;> cases accepted <;> exact .leave trivial
    | sNetLock => cases phase <;> cases accepted
  | _ =>
    obtain rfl : after = held := allowed
    cases phase <;> cases accepted <;> exact .stay

namespace Unmixed

variable [DecidableEq ι] {thread : ι} {next : CollectPhase}

/-- A call that neither enters nor leaves, and neither writes nor moves the archive. -/
theorem move_on (unmixed : Unmixed admitted target held phase files) {after : Bool}
    (exclusive : Exclusive CollectPhase.Inside after (Function.update phase thread next))
    (archived : next ≠ .archived)
    (kept : next = .moved ∨ next = .finished true → phase thread = .moved) :
    Unmixed admitted target after (Function.update phase thread next) files where
  exclusive := exclusive
  archive other waiting := by
    by_cases same : other = thread
    · subst same
      rw [Function.update_self] at waiting
      exact absurd waiting archived
    · rw [Function.update_of_ne same] at waiting
      exact unmixed.archive other waiting
  kept other done := by
    by_cases same : other = thread
    · subst same
      rw [Function.update_self] at done
      exact unmixed.kept other (.inl (kept done))
    · rw [Function.update_of_ne same] at done
      exact unmixed.kept other done
  own := unmixed.own

/-- Every step of an admitted call keeps the calls apart. -/
theorem step (unmixed : Unmixed admitted target held phase files) {after : Bool}
    {files' : Archives ι}
    (different : ∀ first second, admitted first → admitted second → first ≠ second →
      target first ≠ target second)
    (aside : ∀ thread, admitted thread → target thread ≠ archivePlace)
    (enters : admitted thread)
    (step : CollectStep (target thread) thread held (phase thread) files after next files') :
    Unmixed admitted target after (Function.update phase thread next) files' := by
  generalize before : phase thread = current at step
  have alone : current.Inside → ∀ other, (phase other).Inside → other = thread := by
    rintro inside other second
    rw [← before] at inside
    exact unmixed.exclusive.unique second inside
  have side : (next.Inside ↔ current.Inside) →
      Exclusive CollectPhase.Inside held (Function.update phase thread next) := by
    rw [← before]
    exact unmixed.exclusive.move
  cases step with
  | stay =>
    rw [← before, Function.update_eq_self]
    exact unmixed
  | enter =>
    refine unmixed.move_on (unmixed.exclusive.enter trivial) CollectPhase.noConfusion ?_
    rintro (done | done) <;> cases done
  | leave inside =>
    have left : Exclusive CollectPhase.Inside false
        (Function.update phase thread (.finished (current = .moved))) := by
      rw [← before] at inside ⊢
      exact unmixed.exclusive.leave inside not_false
    refine unmixed.move_on left CollectPhase.noConfusion ?_
    rintro (done | done)
    · cases done
    · rw [before]
      simpa using done
  | tar =>
    have unnamed : ∀ other, admitted other →
        Function.update files archivePlace (some thread) (target other) = files (target other) :=
      fun other enters => Function.update_of_ne (aside other enters) _ _
    refine ⟨side Iff.rfl, fun other waiting => ?_, fun other done => ?_,
      fun other writer enters found => ?_⟩
    · by_cases same : other = thread
      · rw [same, Function.update_self]
      · rw [Function.update_of_ne same] at waiting
        exact absurd (alone trivial other (by rw [waiting]; trivial)) same
    · by_cases same : other = thread
      · subst same
        rw [Function.update_self] at done
        rcases done with done | done <;> cases done
      · rw [Function.update_of_ne same] at done
        obtain ⟨enters, found⟩ := unmixed.kept other done
        exact ⟨enters, by rw [unnamed other enters, found]⟩
    · rw [unnamed other enters] at found
      exact unmixed.own other writer enters found
  | move =>
    have written := unmixed.archive thread before
    have elsewhere : ∀ other, admitted other → other ≠ thread →
        Function.update (Function.update files archivePlace none) (target thread)
          (files archivePlace) (target other) = files (target other) := by
      intro other admits same
      rw [Function.update_of_ne (different other thread admits enters same),
        Function.update_of_ne (aside other admits)]
    refine ⟨side Iff.rfl, fun other waiting => ?_, fun other done => ?_,
      fun other writer admits found => ?_⟩
    · by_cases same : other = thread
      · subst same
        rw [Function.update_self] at waiting
        cases waiting
      · rw [Function.update_of_ne same] at waiting
        exact absurd (alone trivial other (by rw [waiting]; trivial)) same
    · by_cases same : other = thread
      · subst same
        exact ⟨enters, by rw [Function.update_self, written]⟩
      · rw [Function.update_of_ne same] at done
        obtain ⟨admits, found⟩ := unmixed.kept other done
        exact ⟨admits, by rw [elsewhere other admits same, found]⟩
    · by_cases same : other = thread
      · subst same
        rw [Function.update_self, written] at found
        exact (Option.some.inj found).symm
      · rw [elsewhere other admits same] at found
        exact unmixed.own other writer admits found

end Unmixed

end Archives

/-! ## The names -/

/-- A name that passes the checks of the method. -/
def PassesChecks (platform : Platform) (zipFilename : String16) : Prop :=
  zipFilename ≠ utf16 "" ∧ strstr (platform.string zipFilename) (ascii ".zip") = true

instance (platform : Platform) (zipFilename : String16) :
    Decidable (PassesChecks platform zipFilename) := inferInstanceAs (Decidable (_ ∧ _))

/-- A name that the shell takes as it is, that fits the command, and that is one file name in
`/sdcard` and no directory. -/
structure OneFile (dialect : Shell.Dialect) (isDirectory : List Bytes → Bool) (name : Bytes) :
    Prop where
  /-- The shell takes every byte literally. -/
  plain : dialect.plainText true name = true
  /-- The command that moves the archive is not cut off. -/
  fits : (mvCommand name).Fits
  /-- The name is one component. -/
  noSlash : (47 : UInt8) ∉ name
  /-- It is no directory. -/
  noDirectory : isDirectory (namePlace name) = false

section Names

variable {platform : Platform} {dialect : Shell.Dialect} {isDirectory : List Bytes → Bool}

/-- A name with `.zip` in it and without a slash is the last component of its place. -/
theorem namePlace_of_zip {name : Bytes} (zip : strstr name (ascii ".zip") = true)
    (noSlash : (47 : UInt8) ∉ name) : namePlace name = [ascii "sdcard", name] := by
  have within : ascii ".zip" <:+: name := of_decide_eq_true zip
  have long : 4 ≤ name.length := within.length_le
  have some_byte : name ≠ [] := by
    rintro rfl
    contradiction
  have noDots : name ≠ ascii "." ∧ name ≠ ascii ".." := by
    constructor <;> rintro rfl <;> exact absurd long (by decide)
  have split : ascii "/sdcard/" ++ name = ascii "/sdcard" ++ 47 :: name := rfl
  rw [namePlace, split]
  exact place_name (ascii "/sdcard") ⟨name, some_byte, noSlash, noDots⟩

/-- The line that moves the archive leads to the place of such a name. -/
theorem destination_mvCommand {name : Bytes} (oneFile : OneFile dialect isDirectory name) :
    destination dialect isDirectory (mvCommand name).line = some (namePlace name) := by
  have noDirectory : isDirectory (place (ascii "/sdcard/" ++ name)) = false := oneFile.noDirectory
  simp only [destination, lexemes_mvCommand oneFile.plain oneFile.fits, and_self, ↓reduceIte,
    noDirectory, Bool.false_eq_true]
  rfl

/-- A call whose name does not pass the checks does nothing. -/
theorem collectLogFiles_refused {zipFilename : String16}
    (refused : ¬PassesChecks platform zipFilename) :
    collectLogFiles_block platform zipFilename = .done false := by
  unfold collectLogFiles_block
  split
  · rfl
  · rename_i named
    rw [if_pos (Bool.eq_false_iff.mpr fun zip => refused ⟨named, zip⟩)]
    rfl

end Names

/-! ## Any number of calls -/

/-- A call is about to run, or running, a command on the archive. -/
def OnArchive (program : Program os Bool) : Prop :=
  ∃ command next, program = .ask (.system command) next ∧
    (command.line = tarLine ∨ Moves command.line)

section Calls

variable {ι : Type}

/-- What a client that collects logs relies on. -/
structure CollectedApart [DecidableEq ι] (platform : Platform) (names : ι → String16)
    (log : List (ι × Event os)) (files : Archives ι) (config : Bool × (ι → Program os Bool)) :
    Prop where
  /-- A call that returned `true` finds the archive that it wrote under its name. -/
  kept : ∀ thread, config.2 thread = .done true →
    files (namePlace (platform.string (names thread))) = some thread
  /-- No call ever finds the archive of another one there. -/
  own : ∀ thread writer, PassesChecks platform (names thread) →
    files (namePlace (platform.string (names thread))) = some writer → writer = thread
  /-- No two calls run commands on the archive at once. -/
  alone : ∀ first second, OnArchive (config.2 first) → OnArchive (config.2 second) → first = second
  /-- The lock is free when no call is in progress. -/
  free : (∀ thread, ownTrace thread log = [] ∨ ∃ value, config.2 thread = .done value) →
    config.1 = false

/-- Each name that passes the checks is one file name, and no two calls have the same. -/
structure SeparateNames (platform : Platform) (dialect : Shell.Dialect)
    (isDirectory : List Bytes → Bool) (names : ι → String16) : Prop where
  /-- A name is one file name. -/
  oneFile : ∀ thread, PassesChecks platform (names thread) →
    OneFile dialect isDirectory (platform.string (names thread))
  /-- The names differ as the C strings that the method works with. -/
  different : ∀ first second, PassesChecks platform (names first) →
    PassesChecks platform (names second) → first ≠ second →
      platform.string (names first) ≠ platform.string (names second)

namespace SeparateNames

variable {platform : Platform} {dialect : Shell.Dialect} {isDirectory : List Bytes → Bool}
  {misread : Bytes → Archives ι → Archives ι} {names : ι → String16}

/-- The place of a name that passes the checks. -/
theorem namePlace_eq (separate : SeparateNames platform dialect isDirectory names) {thread : ι}
    (passes : PassesChecks platform (names thread)) :
    namePlace (platform.string (names thread)) =
      [ascii "sdcard", platform.string (names thread)] :=
  namePlace_of_zip passes.2 (separate.oneFile thread passes).noSlash

/-- Different calls have different places. -/
theorem apart (separate : SeparateNames platform dialect isDirectory names) (first second : ι)
    (passes : PassesChecks platform (names first)) (passes' : PassesChecks platform (names second))
    (other : first ≠ second) : namePlace (platform.string (names first)) ≠
      namePlace (platform.string (names second)) := by
  rw [separate.namePlace_eq passes, separate.namePlace_eq passes']
  intro same
  exact separate.different first second passes passes' other (List.cons.inj (List.cons.inj same).2).1

/-- No call has the place where the archive is written. -/
theorem aside (separate : SeparateNames platform dialect isDirectory names) (thread : ι)
    (passes : PassesChecks platform (names thread)) :
    namePlace (platform.string (names thread)) ≠ archivePlace := by
  rw [separate.namePlace_eq passes, show archivePlace = [ascii "sdcard", archiveName.bytes] by decide]
  intro same
  have zip := passes.2
  rw [(List.cons.inj (List.cons.inj same).2).1] at zip
  exact absurd zip (by decide)

/-- What a thread may do: its call, if its name passes the checks, and nothing otherwise. -/
def monitor (platform : Platform) (names : ι → String16) (thread : ι) : Monitor os CollectPhase :=
  if PassesChecks platform (names thread) then
    collectMonitor (mvCommand (platform.string (names thread))).line
  else fun _ _ _ => none

/-- Every call does what it may. -/
theorem call_obeys (platform : Platform) (names : ι → String16) (thread : ι) :
    (collectLogFiles_block platform (names thread)).Obeys (monitor platform names thread) .outside
      Ended := by
  unfold monitor
  split
  · exact collectLogFiles_obeys (names thread)
  · rename_i refused
    rw [collectLogFiles_refused refused]
    exact .inl ⟨rfl, rfl⟩

variable [DecidableEq ι]

/-- Every interleaving keeps the calls apart. -/
theorem unmixed_of_shadow (separate : SeparateNames platform dialect isDirectory names)
    {log : List (ι × Event os)} {config : Bool × (ι → CollectPhase)}
    (shadow : Shadow lockWorld (monitor platform names) (false, fun _ => .outside) log config) :
    Unmixed (fun thread => PassesChecks platform (names thread))
      (fun thread => namePlace (platform.string (names thread))) config.1 config.2
      (archivesAfter dialect isDirectory misread log) := by
  induction shadow with
  | start =>
    refine ⟨.free fun _ => not_false, fun _ waiting => ?_, fun _ done => ?_, nofun⟩
    · cases waiting
    · rcases done with done | done <;> cases done
  | @step log held after phase next thread event earlier allowed accepted ih =>
    rw [archivesAfter_concat]
    unfold monitor at accepted
    split at accepted
    · rename_i passes
      exact ih.step separate.apart separate.aside passes (collectStep_of_accepted
        (mvCommand_moves _) (destination_mvCommand (separate.oneFile thread passes)) accepted
        allowed)
    · contradiction

end SeparateNames

variable [DecidableEq ι]

/-- In every interleaving of any number of calls whose names, as far as they pass the checks, are
different file names that the shell takes as they are and that the command has room for: a call
that returned `true` finds the archive it wrote under its name, no call ever finds another one
there, no two calls run commands on the archive at once, and the lock is free when no call is in
progress. -/
theorem collections_unmixed (platform : Platform) (dialect : Shell.Dialect)
    (isDirectory : List Bytes → Bool) (misread : Bytes → Archives ι → Archives ι)
    (names : ι → String16) (separate : SeparateNames platform dialect isDirectory names)
    {log : List (ι × Event os)} {config : Bool × (ι → Program os Bool)}
    (run : Reaches lockWorld
      (false, fun thread => collectLogFiles_block platform (names thread)) log config) :
    CollectedApart platform names log (archivesAfter dialect isDirectory misread log) config := by
  obtain ⟨phase, shadow, obeyed⟩ := run.shadow (SeparateNames.call_obeys platform names)
  have unmixed : Unmixed (fun thread => PassesChecks platform (names thread))
      (fun thread => namePlace (platform.string (names thread))) config.1 phase
      (archivesAfter dialect isDirectory misread log) := separate.unmixed_of_shadow shadow
  have inside : ∀ thread, OnArchive (config.2 thread) → (phase thread).Inside := by
    rintro thread ⟨command, next, waiting, _⟩
    have running := obeyed thread
    rw [waiting] at running
    obtain ⟨after, accepted, _⟩ := running (.exited 0)
    unfold SeparateNames.monitor at accepted
    split at accepted
    · cases stands : phase thread with
      | holding => trivial
      | archived => trivial
      | outside | moved | finished _ =>
        rw [stands] at accepted
        cases accepted
    · contradiction
  refine ⟨fun thread returned => ?_, unmixed.own, fun first second one two => ?_, fun idle => ?_⟩
  · have ended := obeyed thread
    rw [returned] at ended
    rcases ended with ⟨_, failed⟩ | ⟨moved, finished, success⟩
    · contradiction
    · rw [success rfl] at finished
      exact (unmixed.kept thread (.inr finished)).2
  · exact unmixed.exclusive.unique (inside first one) (inside second two)
  · refine unmixed.exclusive.free_of_outside fun thread => ?_
    rcases idle thread with unstarted | ⟨value, returned⟩
    · have same := shadow.phase_eq thread
      rw [unstarted] at same
      have outside : CollectPhase.outside = phase thread := Option.some.inj same
      rw [← outside]
      exact not_false
    · have ended := obeyed thread
      rw [returned] at ended
      rcases ended with ⟨out, _⟩ | ⟨moved, finished, _⟩
      · rw [out]
        exact not_false
      · rw [finished]
        exact not_false

end Calls

/-- The system lets the lock be taken and freed and is uneventful otherwise. -/
def locking (held : Bool) : (op : Op) → op.Answer × Bool
  | .lock .sLockLog => ((), true)
  | .unlock .sLockLog => ((), false)
  | op => (op.uneventful, held)

/-- A taken lock cannot be taken. -/
def lockable (held : Bool) (op : Op) : Bool := !held || op ≠ .lock .sLockLog

/-- The world allows these answers. -/
theorem locking_allowed (held : Bool) (op : Op) (able : lockable held op = true) :
    lockWorld held op (locking held op).1 (locking held op).2 := by
  cases op with
  | lock mutex =>
    cases mutex with
    | sLockLog => exact ⟨by cases held <;> simp_all [lockable], rfl⟩
    | sNetLock => exact rfl
  | unlock mutex => cases mutex <;> exact rfl
  | system command => exact ⟨rfl, rfl⟩
  | _ => exact rfl

/-- The file names of two calls. -/
def twoNames (thread : Bool) : String16 := utf16 (if thread then "b.zip" else "a.zip")

/-- Two calls, one after the other. -/
theorem collections_unmixed_both : ∃ log config, Reaches lockWorld
      (false, fun thread => collectLogFiles_block (.plain false) (twoNames thread)) log config ∧
    (config.2 false = .done true ∧ config.2 true = .done true) ∧
    CollectedApart (.plain false) twoNames log
      (archivesAfter Shell.posix (fun _ => false) (fun _ files => files) log) config := by
  obtain ⟨log, config, played, possible, returned⟩ : ∃ log config,
      play locking (List.replicate 16 false ++ List.replicate 16 true) []
          (false, fun thread => collectLogFiles_block (.plain false) (twoNames thread)) =
        some (log, config) ∧
      playable lockable locking (List.replicate 16 false ++ List.replicate 16 true)
        (false, fun thread => collectLogFiles_block (.plain false) (twoNames thread)) = true ∧
      config.2 false = .done true ∧ config.2 true = .done true := ⟨_, _, rfl, rfl, rfl, rfl⟩
  have run := play_reaches_able locking_allowed _ .start possible played
  have separate : SeparateNames (.plain false) Shell.posix (fun _ => false) twoNames := by
    refine ⟨fun thread _ => ?_, by decide⟩
    cases thread <;> exact ⟨by decide, by decide, by decide, rfl⟩
  exact ⟨log, config, run, returned, collections_unmixed (.plain false) Shell.posix _ _ twoNames
    separate run⟩

/-- Two names that differ in a blank at the end. -/
def blankNames (thread : Bool) : String16 := utf16 (if thread then "a.zip " else "a.zip")

/-- The shell does not see the blank: the first call, which was told that its archive has been
collected, finds the archive of the second call under its name. -/
theorem not_collections_unmixed : ¬∀ (platform : Platform) (dialect : Shell.Dialect)
    (isDirectory : List Bytes → Bool) (misread : Bytes → Archives Bool → Archives Bool)
    (names : Bool → String16) (log : List (Bool × Event os))
    (config : Bool × (Bool → Program os Bool)),
      (∀ first second, first ≠ second →
        platform.string (names first) ≠ platform.string (names second)) →
      Reaches lockWorld (false, fun thread => collectLogFiles_block platform (names thread))
        log config →
      CollectedApart platform names log (archivesAfter dialect isDirectory misread log) config := by
  intro apart
  obtain ⟨log, config, played, possible, returned, mixed⟩ : ∃ log config,
      play locking (List.replicate 16 false ++ List.replicate 16 true) []
          (false, fun thread => collectLogFiles_block (.plain false) (blankNames thread)) =
        some (log, config) ∧
      playable lockable locking (List.replicate 16 false ++ List.replicate 16 true)
        (false, fun thread => collectLogFiles_block (.plain false) (blankNames thread)) = true ∧
      config.2 false = .done true ∧
      archivesAfter Shell.posix (fun _ => false) (fun _ files => files) log
        (namePlace (ascii "a.zip")) = some true := ⟨_, _, rfl, rfl, rfl, by decide +kernel⟩
  have run := play_reaches_able locking_allowed _ .start possible played
  have kept := (apart (.plain false) Shell.posix (fun _ => false) (fun _ files => files) blankNames
    log config (by decide) run).kept false returned
  exact absurd (mixed.symm.trans kept) (by decide)

end Rjcore
