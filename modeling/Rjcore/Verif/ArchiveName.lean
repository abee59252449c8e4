import Rjcore.Files.FileSystem
import Rjcore.Interaction.Sequence
import Rjcore.Text.Lexemes
import Rjcore.Verif.Commands

/-!
# The name of the archive

`collectLogFiles_block` moves its archive to a name that the client chose. The check of the name
looks for `.zip` anywhere in it, and the name goes into a path: what stands behind `.zip`,
slashes and the names of directories all lead elsewhere. The move is followed in a file system
with links, for whatever the other commands leave there.
-/

namespace Rjcore

open Interaction CText RjcoreService Files

variable {Dir : Type}

/-- Files over which commands succeed: a line that the shell reads as `mv` with two operands
moves an entry, any other command may change everything. -/
def filesWorld [DecidableEq Dir] (dialect : Shell.Dialect) : World os (FileSystem Dir)
  | fs, .system command, status, after => status = .exited 0 ∧ ∀ source target,
    Shell.lexemes dialect command.line =
      some [.word (ascii "mv"), .word source, .word target] → fs.Moves source target after
  | fs, _, _, after => after = fs

/-- The name under which `tar` leaves the archive. -/
def archiveName : Name where
  bytes := ascii "localhost.tar.gz"
  some_byte := by decide
  noSlash := by decide
  noDots := by decide

/-- The archive stands under the name in `/sdcard`, the name ends in `.zip`, and outside of
`/sdcard` everything is as it was before the move. -/
structure LandsAs (name : Bytes) (before after : FileSystem Dir) : Prop where
  /-- The format is `*.zip`. -/
  zip : ascii ".zip" <:+ name
  /-- The file that was the archive has the name. -/
  placed : ∃ sdcard entryName content, before.Resolves (ascii "/sdcard") sdcard ∧
    entryName.bytes = name ∧ before.entry sdcard archiveName = some (.file content) ∧
      after.entry sdcard entryName = some (.file content)
  /-- No directory outside has changed. -/
  confined : ∀ sdcard, before.Resolves (ascii "/sdcard") sdcard → ∀ dir, ¬before.Below sdcard dir →
    ∀ other, after.entry dir other = before.entry dir other

/-- The name ends in `.zip`, has no slash and is no directory in `/sdcard`, and the archive is a
regular file. -/
structure CanLand (name : Bytes) (before : FileSystem Dir) : Prop where
  /-- The format is `*.zip`. -/
  zip : ascii ".zip" <:+ name
  /-- The name is one component. -/
  noSlash : (47 : UInt8) ∉ name
  /-- It is no directory, and no link to one. -/
  noDirectory : ∀ dir, ¬before.Resolves (ascii "/sdcard/" ++ name) dir
  /-- The archive is a file, and no link to one. -/
  regular : ∃ sdcard content, before.Resolves (ascii "/sdcard") sdcard ∧
    before.entry sdcard archiveName = some (.file content)

/-- The last command of a run is the move, and starts from some files. -/
def LastMoves (name : Bytes) (steps : List (FileSystem Dir × Event os))
    (before : FileSystem Dir) : Prop :=
  ∃ earlier later, steps = earlier ++ (before, ⟨.system (mvCommand name), .exited 0⟩) :: later ∧
    ∀ step ∈ later, step.2.op.command? = none

/-- What comes first does not matter. -/
theorem LastMoves.preceded {name : Bytes} {steps : List (FileSystem Dir × Event os)}
    {before : FileSystem Dir} (last : LastMoves name steps before)
    (first : List (FileSystem Dir × Event os)) : LastMoves name (first ++ steps) before := by
  obtain ⟨earlier, later, rfl, quiet⟩ := last
  exact ⟨first ++ earlier, later, (List.append_assoc _ _ _).symm, quiet⟩

/-- What is no command may follow. -/
theorem LastMoves.followed {name : Bytes} {steps : List (FileSystem Dir × Event os)}
    {before : FileSystem Dir} (last : LastMoves name steps before)
    {step : FileSystem Dir × Event os} (noCommand : step.2.op.command? = none) :
    LastMoves name (steps ++ [step]) before := by
  obtain ⟨earlier, later, rfl, quiet⟩ := last
  refine ⟨earlier, later ++ [step], List.append_assoc _ _ _, fun other member => ?_⟩
  rcases List.mem_append.mp member with inner | new
  · exact quiet other inner
  · rwa [List.mem_singleton.mp new]

section Move

variable {name : Bytes} {before after : FileSystem Dir}

/-- The components of a path in `/sdcard`. -/
theorem components_sdcard (some_byte : name ≠ []) (noSlash : (47 : UInt8) ∉ name) :
    components (ascii "/sdcard/" ++ name) = [ascii "sdcard"] ++ [name] := by
  rw [← components_of_noSlash some_byte noSlash]
  exact components_slash (ascii "/sdcard") name

/-- A path in `/sdcard` that ends with a name is located there. -/
theorem locates_sdcard {dir : Dir} {entryName : Name} (some_byte : name ≠ [])
    (noSlash : (47 : UInt8) ∉ name)
    (located : before.Locates (ascii "/sdcard/" ++ name) dir entryName) :
    before.Resolves (ascii "/sdcard") dir ∧ entryName.bytes = name := by
  obtain ⟨front, split, walk⟩ := located.reaches
  rw [components_sdcard some_byte noSlash] at split
  obtain ⟨rfl, last⟩ := List.append_inj' split rfl
  exact ⟨walk, (List.cons.inj last).1.symm⟩

/-- The archive is moved from `/sdcard`. -/
theorem locates_archive {dir : Dir} {entryName : Name}
    (located : before.Locates (ascii "/sdcard/localhost.tar.gz") dir entryName) :
    before.Resolves (ascii "/sdcard") dir ∧ entryName = archiveName := by
  obtain ⟨inSdcard, named⟩ :=
    @locates_sdcard _ archiveName.bytes _ _ _ archiveName.some_byte archiveName.noSlash located
  exact ⟨inSdcard, Name.ext named⟩

/-- A name in `/sdcard` that is neither a directory nor a link leads to no directory. -/
theorem not_resolves_sdcard {sdcard : Dir} {entryName : Name}
    (resolves : before.Resolves (ascii "/sdcard") sdcard)
    (noDirectory : ∀ dir, before.entry sdcard entryName ≠ some (.directory dir))
    (noLink : ∀ target, before.entry sdcard entryName ≠ some (.link target)) (dir : Dir) :
    ¬before.Resolves (ascii "/sdcard/" ++ entryName.bytes) dir := by
  intro isDirectory
  unfold FileSystem.Resolves FileSystem.Reaches at isDirectory
  rw [components_sdcard entryName.some_byte entryName.noSlash] at isDirectory
  obtain ⟨middle, left, toSdcard, toName⟩ := FileSystem.Walk.split isDirectory
  obtain rfl : middle = sdcard := FileSystem.Walk.unique toSdcard resolves
  rcases toName.directory_or_link with ⟨inner, found⟩ | ⟨target, found⟩
  · exact noDirectory inner found
  · exact noLink target found

/-- What the last move leaves is the archive under its name if and only if it can land there. -/
theorem landsAs_iff_canLand [DecidableEq Dir]
    (moves : before.Moves (ascii "/sdcard/localhost.tar.gz") (ascii "/sdcard/" ++ name) after) :
    LandsAs name before after ↔ CanLand name before := by
  constructor
  · rintro ⟨zip, ⟨sdcard, entryName, content, resolves, rfl, archive, placed⟩, _⟩
    refine ⟨zip, entryName.noSlash, fun dir isDirectory => ?_, sdcard, content, resolves, archive⟩
    have other : entryName ≠ archiveName := by
      rintro rfl
      exact absurd zip (by decide)
    -- the archive went into the directory, and the name is still what it was
    cases moves with
    | rename located found noDirectory place => exact noDirectory dir isDirectory
    | into located found target =>
      obtain ⟨_, rfl⟩ := locates_archive located
      rw [FileSystem.move_entry_other (fun same => other same.2) fun same => other same.2] at placed
      exact not_resolves_sdcard resolves (by simp [placed]) (by simp [placed]) _ isDirectory
  · rintro ⟨zip, noSlash, noDirectory, sdcard, content, resolves, archive⟩
    have some_byte : name ≠ [] := by
      rintro rfl
      exact absurd zip (by decide)
    cases moves with
    | into located found isDirectory => exact absurd isDirectory (noDirectory _)
    | rename located found _ place =>
      obtain ⟨inSdcard, rfl⟩ := locates_archive located
      obtain ⟨toSdcard, named⟩ := locates_sdcard some_byte noSlash place
      obtain rfl := FileSystem.Walk.unique inSdcard resolves
      obtain rfl := FileSystem.Walk.unique toSdcard inSdcard
      refine ⟨zip, ⟨_, _, content, inSdcard, named, archive, ?_⟩, ?_⟩
      · rw [FileSystem.move_entry_to]
        exact archive
      · intro top resolves' dir outside otherName
        obtain rfl := FileSystem.Walk.unique resolves' inSdcard
        have apart : dir ≠ top := by
          rintro rfl
          exact outside .self
        exact FileSystem.move_entry_other (fun same => apart same.1) fun same => apart same.1

end Move

section Runs

variable [DecidableEq Dir] {platform : Platform} {dialect : Shell.Dialect} {zipFilename : String16}

/-- The line of the move is read as `mv` with the archive and the path in `/sdcard`. -/
theorem lexemes_mvCommand {name : Bytes} (plain : dialect.plainText true name = true)
    (fits : (mvCommand name).Fits) : Shell.lexemes dialect (mvCommand name).line =
      some [.word (ascii "mv"), .word (ascii "/sdcard/localhost.tar.gz"),
        .word (ascii "/sdcard/" ++ name)] := by
  let items : List Shell.Item := [.bare (ascii "mv"), .bare (ascii "/sdcard/localhost.tar.gz"),
    .bare (ascii "/sdcard/" ++ name)]
  have printed : (mvCommand name).printed = Shell.Item.line items := rfl
  have ordinary : ∀ text : Bytes, text ≠ [] → text.Forall (· ∈
      ascii "0123456789ABCDEFGHIJKLMNOPQRSTUVWXYZabcdefghijklmnopqrstuvwxyz./:_-") →
        dialect.plainText false text = true := fun text some_text each =>
    dialect.plainText_ordinary (.inr some_text) (List.forall_iff_forall_mem.mp each)
  rw [Command.line_of_fits fits, printed, Shell.lexemes_line]
  · rfl
  · refine List.forall_iff_forall_mem.mp ⟨ordinary _ (by decide) (by decide),
      ordinary _ (by decide) (by decide), ?_⟩
    exact Shell.Dialect.plainText_append (ordinary _ (by decide) (by decide)) plain

/-- A command succeeds, and leaves what its line may leave. -/
theorem mySystem_succeeds {command : Command} (named : command.line ≠ []) (start : FileSystem Dir) :
    (mySystem command).Within (filesWorld dialect) start fun steps ret after => ret = 0 ∧
      filesWorld dialect start (.system command) (.exited 0) after ∧ ∃ saved restored,
        steps = [(start, ⟨.signal .default, saved⟩), (start, ⟨.system command, .exited 0⟩),
          (after, ⟨.signal saved, restored⟩)] := by
  rw [mySystem, if_neg named]
  rintro saved _ rfl status after ⟨rfl, effect⟩ restored _ rfl
  exact ⟨rfl, ⟨rfl, effect⟩, saved, restored, rfl⟩

/-- Where success is reported, the last command moved the archive. -/
def ArchiveMoved (name : Bytes) (steps : List (FileSystem Dir × Event os)) (reported : Bool)
    (final : FileSystem Dir) : Prop :=
  reported = true → ∃ before, LastMoves name steps before ∧
    before.Moves (ascii "/sdcard/localhost.tar.gz") (ascii "/sdcard/" ++ name) final

/-- What comes first does not matter. -/
theorem ArchiveMoved.preceded {name : Bytes} {steps : List (FileSystem Dir × Event os)}
    {reported : Bool} {final : FileSystem Dir} (collected : ArchiveMoved name steps reported final)
    (first : List (FileSystem Dir × Event os)) :
    ArchiveMoved name (first ++ steps) reported final := fun success =>
  have ⟨before, last, moves⟩ := collected success
  ⟨before, last.preceded first, moves⟩

/-- Nothing is claimed of a failure. -/
theorem ArchiveMoved.failure {name : Bytes} {steps : List (FileSystem Dir × Event os)}
    {final : FileSystem Dir} : ArchiveMoved name steps false final :=
  fun success => absurd success Bool.false_ne_true

/-- The archive is written and moved. -/
theorem archiveLogs_within (plain : dialect.plainText true (platform.string zipFilename) = true)
    (fits : (mvCommand (platform.string zipFilename)).Fits) (start : FileSystem Dir) :
    (archiveLogs platform zipFilename).Within (filesWorld dialect) start
      (ArchiveMoved (platform.string zipFilename)) := by
  have tar : tarCommand.line ≠ [] := Command.printf_line_ne_nil rfl (by decide) (by decide)
  have move : (mvCommand (platform.string zipFilename)).line ≠ [] :=
    Command.printf_line_ne_nil rfl (by decide) (by decide)
  rw [archiveLogs]
  rintro hasClientLog _ rfl
  cases hasClientLog with
  | false => exact ArchiveMoved.failure
  | true =>
    rintro hasLastLog _ rfl
    cases hasLastLog with
    | false => exact ArchiveMoved.failure
    | true =>
      change Program.Within _ (mySystem tarCommand >>= _) _ _
      refine Program.Within.bind (mySystem_succeeds tar _) ?_
      rintro steps _ archived ⟨rfl, _, _, _, rfl⟩
      change Program.Within _ (mySystem (mvCommand (platform.string zipFilename)) >>= _) _ _
      refine Program.Within.bind (mySystem_succeeds move archived) ?_
      rintro steps _ moved ⟨rfl, ⟨_, effect⟩, _, _, rfl⟩ _ moved rfl
      refine fun _ => ⟨archived, ⟨[_, _, _, _, _, _], [_, _], rfl, ?_⟩,
        effect _ _ (lexemes_mvCommand plain fits)⟩
      simp [Op.command?]

/-- The tombstones are made if need be, and the archive is written and moved. -/
theorem collectLogs_within (plain : dialect.plainText true (platform.string zipFilename) = true)
    (fits : (mvCommand (platform.string zipFilename)).Fits) (start : FileSystem Dir) :
    (collectLogs platform zipFilename).Within (filesWorld dialect) start
      (ArchiveMoved (platform.string zipFilename)) := by
  have archive := @archiveLogs_within Dir _ platform dialect zipFilename plain fits
  have named : (Command.literal "save_systeminfo").line ≠ [] := by decide
  have named' : (Command.literal "mkdir /data/tombstones").line ≠ [] := by decide
  rw [collectLogs]
  refine Program.Within.bind (mySystem_succeeds named start) ?_
  rintro steps _ middle ⟨rfl, _, _, _, rfl⟩ hasSystemLog _ rfl
  cases hasSystemLog with
  | false => exact ArchiveMoved.failure
  | true =>
    rintro hasTombstones _ rfl
    cases hasTombstones with
    | true => exact (archive _).mono fun _ _ _ collected => collected.preceded [_, _, _, _, _]
    | false =>
      change Program.Within _ (mySystem (.literal "mkdir /data/tombstones") >>= _) _ _
      refine Program.Within.bind (mySystem_succeeds named' _) ?_
      rintro steps _ middle ⟨rfl, _, _, _, rfl⟩
      change Program.Within _ (chmodDir platform (utf16 "/data/tombstones") (utf16 "766") >>= _) _ _
      refine Program.Within.bind (Program.Within.of_forall fun _ _ _ => trivial) ?_
      rintro chmod changed ready -
      cases changed with
      | false => exact ArchiveMoved.failure
      | true => exact (archive _).mono fun _ _ _ collected =>
          (collected.preceded chmod).preceded [_, _, _, _, _, _, _, _]

/-- A call that reports success ends with the move of the archive. -/
theorem collectLogFiles_within (plain : dialect.plainText true (platform.string zipFilename) = true)
    (fits : (mvCommand (platform.string zipFilename)).Fits) (start : FileSystem Dir) :
    (collectLogFiles_block platform zipFilename).Within (filesWorld dialect) start
      (ArchiveMoved (platform.string zipFilename)) := by
  unfold collectLogFiles_block
  split
  · exact ArchiveMoved.failure
  split
  · exact ArchiveMoved.failure
  rintro _ _ rfl
  change Program.Within _ (collectLogs platform zipFilename >>= _) _ _
  refine Program.Within.bind (collectLogs_within plain fits _) ?_
  rintro steps reported final collected _ _ rfl success
  obtain ⟨before, last, moves⟩ := collected success
  exact ⟨before, (last.followed rfl).preceded [_], moves⟩

/-- A call that reports success ends with a move that leaves the archive under its name in
`/sdcard`, and all else outside as it was, if and only if the name ends in `.zip`, has no slash
and is no directory there, and the archive is a regular file. -/
theorem landsAs_iff (platform : Platform) (dialect : Shell.Dialect) (zipFilename : String16)
    (plain : dialect.plainText true (platform.string zipFilename) = true)
    (fits : (mvCommand (platform.string zipFilename)).Fits) (start : FileSystem Dir) :
    (collectLogFiles_block platform zipFilename).Within (filesWorld dialect) start
      fun steps reported final => reported = true →
        ∃ before, LastMoves (platform.string zipFilename) steps before ∧
          (LandsAs (platform.string zipFilename) before final ↔
            CanLand (platform.string zipFilename) before) := by
  refine (collectLogFiles_within plain fits start).mono fun steps reported final collected => ?_
  intro success
  obtain ⟨before, last, moves⟩ := collected success
  exact ⟨before, last, landsAs_iff_canLand moves⟩

end Runs

/-- The directories `/` and `/sdcard`, with the archive. -/
def twoDirectories : FileSystem Bool where
  root := false
  working := false
  parent _ := false
  entry
    | false, name => if name.bytes = ascii "sdcard" then some (.directory true) else none
    | true, name => if name = archiveName then some (.file []) else none
  maxLinks := 40

/-- A name with the suffix, which is free in `/sdcard`, for a call that succeeds. -/
theorem landsAs_iff_log :
    (collectLogFiles_block (.plain false) (utf16 "log.zip")).Within
      (filesWorld Shell.posix) twoDirectories fun steps reported final => reported = true →
        ∃ before, LastMoves (ascii "log.zip") steps before ∧
          (LandsAs (ascii "log.zip") before final ↔ CanLand (ascii "log.zip") before) :=
  landsAs_iff (.plain false) Shell.posix (utf16 "log.zip") (by decide) (by decide) twoDirectories

/-- The path `/sdcard` is a directory there. -/
theorem twoDirectories_sdcard : twoDirectories.Resolves (ascii "/sdcard") true :=
  .into (rfl : (⟨ascii "sdcard", by decide, by decide, by decide⟩ : Name).bytes = _) rfl .here

/-- The archive may be moved to every other name there. -/
theorem twoDirectories_moves (entryName : Name) (other : entryName ≠ archiveName) :
    twoDirectories.Moves (ascii "/sdcard/localhost.tar.gz") (ascii "/sdcard/" ++ entryName.bytes)
      (twoDirectories.move true archiveName true entryName) := by
  have absent : twoDirectories.entry true entryName = none := if_neg other
  have archive : twoDirectories.entry true archiveName = some (.file []) := by
    simp [twoDirectories]
  refine .rename ⟨⟨[ascii "sdcard"], by decide, twoDirectories_sdcard⟩, by decide⟩
    (by rw [archive]; rfl)
    (not_resolves_sdcard twoDirectories_sdcard (by simp [absent]) (by simp [absent]))
    ⟨⟨[ascii "sdcard"], components_sdcard entryName.some_byte entryName.noSlash,
      twoDirectories_sdcard⟩, fun slash => ?_⟩
  rw [List.getLast?_append_of_ne_nil _ entryName.some_byte] at slash
  exact entryName.noSlash (List.mem_of_getLast? slash)

/-- What is known of every result that a call reports is known behind a command that succeeds. -/
theorem mySystem_elim {dialect : Shell.Dialect} [DecidableEq Dir] {command : Command}
    (named : command.line ≠ []) {next : Int → Program os Bool} {start after : FileSystem Dir}
    {known : Bool → Prop}
    (possible : filesWorld dialect start (.system command) (.exited 0) after)
    (holds : (mySystem command >>= next).Within (filesWorld dialect) start
      fun _ reported _ => known reported) :
    (next 0).Within (filesWorld dialect) after fun _ reported _ => known reported := by
  rw [mySystem, if_neg named] at holds
  exact holds .default start rfl (.exited 0) after possible .default after rfl

/-- A command that is no `mv` may succeed and change nothing. -/
theorem possible_of_lexemes {dialect : Shell.Dialect} [DecidableEq Dir] {command : Command}
    (start : FileSystem Dir)
    (other : ((Shell.lexemes dialect command.line).map List.length) ≠ some 3) :
    filesWorld dialect start (.system command) (.exited 0) start := by
  refine ⟨rfl, fun source target read => absurd ?_ other⟩
  rw [read]
  rfl

/-- The format is checked by a search: the archive is moved to a name that does not end in
`.zip`, and success is reported. -/
theorem not_landsAs : ¬∀ (platform : Platform) (dialect : Shell.Dialect) (zipFilename : String16),
    dialect.plainText true (platform.string zipFilename) = true →
      (mvCommand (platform.string zipFilename)).Fits → ∀ start : FileSystem Bool,
        (collectLogFiles_block platform zipFilename).Within (filesWorld dialect) start
          fun steps reported final => reported = true →
            ∃ before, LastMoves (platform.string zipFilename) steps before ∧
              LandsAs (platform.string zipFilename) before final := by
  intro lands
  let entryName : Name := ⟨ascii "log.zip.txt", by decide, by decide, by decide⟩
  have never : (collectLogFiles_block (.plain false) (utf16 "log.zip.txt")).Within
      (filesWorld Shell.posix) twoDirectories fun _ reported _ => reported ≠ true := by
    refine (lands (.plain false) Shell.posix (utf16 "log.zip.txt") (by decide) (by decide)
      twoDirectories).mono fun steps reported final landed success => ?_
    obtain ⟨_, _, landsAs⟩ := landed success
    exact absurd landsAs.zip (by decide)
  rw [collectLogFiles_block, if_neg (by decide), if_neg (by decide)] at never
  have saves := never () twoDirectories rfl
  change Program.Within _ (collectLogs _ _ >>= _) _ fun _ reported _ => reported ≠ true at saves
  rw [collectLogs, Program.bind_assoc] at saves
  have checks := mySystem_elim (by decide) (possible_of_lexemes _ (by decide)) saves
  have found := checks true _ rfl true _ rfl true _ rfl true _ rfl
  change Program.Within _ ((mySystem tarCommand >>= _) >>= _) _ fun _ reported _ =>
    reported ≠ true at found
  rw [Program.bind_assoc] at found
  have archives := mySystem_elim (by decide) (possible_of_lexemes _ (by decide +kernel)) found
  change Program.Within _ ((mySystem (mvCommand (ascii "log.zip.txt")) >>= _) >>= _) _
    fun _ reported _ => reported ≠ true at archives
  rw [Program.bind_assoc] at archives
  have moves := twoDirectories_moves entryName (by decide)
  have possible : filesWorld Shell.posix twoDirectories (.system (mvCommand (ascii "log.zip.txt")))
      (.exited 0) (twoDirectories.move true archiveName true entryName) := by
    refine ⟨rfl, fun source target read => ?_⟩
    rw [lexemes_mvCommand (by decide) (by decide)] at read
    cases read
    exact moves
  have moved := mySystem_elim (by decide) possible archives
  exact moved () _ rfl () _ rfl rfl

end Rjcore
