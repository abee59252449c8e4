import Rjcore.Verif.Commands

/-!
# Client strings in command lines

Eight methods print strings of a client into a command line without quotes. Whatever shell
reads the line, it reads the string as a part of the word it was printed into exactly when
the string is plain there. The checks of the methods do not ask for that: a file that exists
may have a blank in its name.
-/

namespace Rjcore

open Interaction CText RjcoreService

/-- A command line is read as it is meant: every string of a client is a part of the one word
it was printed into. -/
def ReadAsMeant (dialect : Shell.Dialect) (command : Command) : Prop :=
  command.template.Filled (.plain, false) ∧
    Shell.tokens dialect (command.line.map fun byte => ⟨byte, false⟩) =
      Shell.tokens dialect command.template.symbols

/-- The calls whose strings go into commands without a check of their bytes. -/
def Call.splices : Call → Bool
  | .rmFile _ | .chmodFile _ _ | .chmodDir _ _ | .isProcessRunning _ | .getProcessId _
  | .killByProcessName _ | .checkBandwidth_block _ _ _ | .collectLogFiles_block _ => true
  | _ => false

variable (platform : Platform) (dialect : Shell.Dialect) (self : RjcoreService) (call : Call)

/-- Every command with a string of the client fits its buffer. -/
def FitsBuffers : Prop :=
  (self.invoke platform call).Ensures fun trace _ => ∀ event ∈ trace,
    ∀ command ∈ event.op.command?, command.clients ≠ [] → command.Fits

/-- Every command with a string of the client is read as it is meant. -/
def StringsStayData : Prop :=
  (self.invoke platform call).Ensures fun trace _ => ∀ event ∈ trace,
    ∀ command ∈ event.op.command?, command.clients ≠ [] → ReadAsMeant dialect command

/-- The strings that the call prints into commands are plain where they stand: at the front
of a word, or for the file name, the user and the code inside of one. -/
def Harmless : Call → Prop
  | .rmFile path => path ≠ utf16 "" → dialect.plainText false (platform.string path) = true
  | .chmodFile path mode => mode ≠ utf16 "" →
    dialect.plainText false (platform.string mode) = true ∧
      dialect.plainText false (platform.string path) = true
  | .chmodDir path mode => ¬(mode = utf16 "" ∨ path = utf16 "") →
    dialect.plainText false (platform.string mode) = true ∧
      dialect.plainText false (platform.string path) = true
  | .isProcessRunning processname | .getProcessId processname | .killByProcessName processname =>
    dialect.plainText false (platform.string processname) = true
  | .checkBandwidth_block serverIp user code =>
    checkIpaddr platform (platform.string serverIp) = true →
      user.length = 0 ∧ code.length = 0 ∨
        dialect.plainText true (platform.string user) = true ∧
          dialect.plainText true (platform.string code) = true
  | .collectLogFiles_block zipFilename =>
    zipFilename ≠ utf16 "" → strstr (platform.string zipFilename) (ascii ".zip") = true →
      dialect.plainText true (platform.string zipFilename) = true
  | _ => True

variable {platform dialect self call}

section Reading

variable {command : Command}

/-- What is printed is what the shell receives. -/
theorem spliced_template (command : Command) :
    command.template.spliced = command.printed.map fun byte => ⟨byte, false⟩ := by
  obtain ⟨parts, size⟩ := command
  simp only [Command.template, Command.printed]
  induction parts with
  | nil => rfl
  | cons part parts ih =>
    have split : Shell.Template.spliced (part.piece :: parts.map Part.piece) =
        Shell.Template.spliced [part.piece] ++ Shell.Template.spliced (parts.map Part.piece) := by
      simp [Shell.Template.spliced, Shell.Template.symbols]
    rw [List.map_cons, split, ih, List.flatMap_cons, List.map_append]
    cases part <;> simp [Shell.Template.spliced, Shell.Template.symbols, Part.piece, Part.bytes,
      Shell.Piece.symbols, Function.comp_def]

/-- A command that fits is read as it is meant exactly when its strings are plain. -/
theorem readAsMeant_iff (checked : command.template.check (.plain, false) = true)
    (fits : command.Fits) :
    ReadAsMeant dialect command ↔ command.template.Plain dialect (.plain, false) := by
  rw [ReadAsMeant, Command.line_of_fits fits, ← spliced_template]
  exact Shell.Template.staysData_iff checked

/-- A command with strings of a client fits. -/
def ClientFits (command : Command) : Prop := command.clients ≠ [] → command.Fits

/-- A command with strings of a client is read as it is meant. -/
def ClientRead (dialect : Shell.Dialect) (command : Command) : Prop :=
  command.clients ≠ [] → ReadAsMeant dialect command

/-- The same, where the command is known. -/
theorem clientRead_iff {plain : Prop} (client : command.clients ≠ [])
    (checked : command.template.check (.plain, false) = true)
    (pieces : command.template.Plain dialect (.plain, false) ↔ plain)
    (fits : ClientFits command) : ClientRead dialect command ↔ plain := by
  have read := (@readAsMeant_iff dialect _ checked (fits client)).trans pieces
  exact ⟨fun holds => read.mp (holds client), fun holds _ => read.mpr holds⟩

end Reading

section Lines

variable {path mode : Bytes}

/-- The reading of the command of `rmFile`. -/
theorem clientRead_rm (fits : ClientFits (rmCommand path)) :
    ClientRead dialect (rmCommand path) ↔ dialect.plainText false path = true :=
  clientRead_iff (List.cons_ne_nil _ _) rfl (and_iff_left trivial) fits

/-- The reading of the command of `chmodFile`. -/
theorem clientRead_chmod (fits : ClientFits (chmodCommand mode path)) :
    ClientRead dialect (chmodCommand mode path) ↔
      dialect.plainText false mode = true ∧ dialect.plainText false path = true :=
  clientRead_iff (List.cons_ne_nil _ _) rfl (and_congr_right fun _ => and_iff_left trivial) fits

/-- The reading of the command of `chmodDir`. -/
theorem clientRead_chmodDir (fits : ClientFits (chmodDirCommand mode path)) :
    ClientRead dialect (chmodDirCommand mode path) ↔
      dialect.plainText false mode = true ∧ dialect.plainText false path = true :=
  clientRead_iff (List.cons_ne_nil _ _) rfl (and_congr_right fun _ => and_iff_left trivial) fits

/-- The reading of a command that asks for the state of a path, whatever is done with the answer
outside quotes. -/
theorem clientRead_stat {command : Command} {rest : Bytes}
    (parts : command.parts = [.text (ascii "stat "), .client path, .text rest])
    (ends : (rest.foldl Shell.shapeStep (.plain, true)).1 = .plain) (fits : ClientFits command) :
    ClientRead dialect command ↔ dialect.plainText false path = true := by
  have stat : (ascii "stat ").foldl Shell.shapeStep (.plain, false) = (.plain, false) := by decide
  have template : command.template = [.text (ascii "stat "), .data path, .text rest] := by
    rw [Command.template, parts]
    rfl
  have client : command.clients ≠ [] := by
    rw [Command.clients, parts]
    exact List.cons_ne_nil _ _
  refine clientRead_iff client ?_ ?_ fits
  · simp [template, Shell.Template.check, stat, ends]
  · simp [template, Shell.Template.Plain, stat]

set_option maxRecDepth 2000 in
/-- A plain path is read as it is meant by the check of its mode, too. -/
theorem clientRead_check (fits : CheckCommand ClientFits path mode)
    (plain : dialect.plainText false path = true) :
    CheckCommand (ClientRead dialect) path mode := by
  constructor
  · intro three
    exact (clientRead_stat (statCommand3_parts path) (by decide) (fits.1 three)).mpr plain
  · intro four
    exact (clientRead_stat (statCommand4_parts path) (by decide) (fits.2 four)).mpr plain

/-- The reading of the look-up of a process. -/
theorem clientRead_pidof {processname : String16}
    (fits : ClientFits (pidofCommand platform processname)) :
    ClientRead dialect (pidofCommand platform processname) ↔
      dialect.plainText false (platform.string processname) = true :=
  clientRead_iff (List.cons_ne_nil _ _) rfl (and_iff_left trivial) fits

/-- The reading of the command that names the archive. -/
theorem clientRead_mv {zipFilename : Bytes} (fits : ClientFits (mvCommand zipFilename)) :
    ClientRead dialect (mvCommand zipFilename) ↔ dialect.plainText true zipFilename = true :=
  clientRead_iff (List.cons_ne_nil _ _) rfl (and_iff_left trivial) fits

set_option maxRecDepth 2000 in
/-- The reading of the download: an accepted address is always plain. -/
theorem clientRead_download {serverIp user code : String16}
    (accepted : checkIpaddr platform (platform.string serverIp) = true)
    (fits : ClientFits (downloadCommand platform serverIp user code)) :
    ClientRead dialect (downloadCommand platform serverIp user code) ↔
      user.length = 0 ∧ code.length = 0 ∨
        dialect.plainText true (platform.string user) = true ∧
          dialect.plainText true (platform.string code) = true := by
  have address : dialect.plainText true (platform.string serverIp) = true :=
    dialect.plainText_ordinary (.inl rfl) (checkIpaddr_spec accepted).2.2
  unfold downloadCommand at fits ⊢
  split at fits
  · rename_i anonymous
    rw [if_pos anonymous]
    refine Iff.trans (clientRead_iff (List.cons_ne_nil _ _) rfl (and_iff_left trivial) fits) ?_
    exact iff_of_true address (.inl anonymous)
  · rename_i named
    rw [if_neg named, or_iff_right named]
    refine Iff.trans (clientRead_iff (List.cons_ne_nil _ _) rfl Iff.rfl fits) ?_
    constructor
    · exact fun pieces => ⟨pieces.1, pieces.2.1⟩
    · exact fun plain => ⟨plain.1, plain.2, address, trivial⟩

end Lines

/-- The commands for the tombstones. -/
theorem allCommands_tombstones {P : Command → Prop}
    (change : P (chmodDirCommand (ascii "766") tombstones)) (check : P (statCommand3 tombstones)) :
    AllCommands P (chmodDir platform (utf16 "/data/tombstones") (utf16 "766")) := by
  have named : ¬(utf16 "766" = utf16 "" ∨ utf16 "/data/tombstones" = utf16 "") := by decide
  have path : platform.string (utf16 "/data/tombstones") = tombstones := by
    have narrow := platform.string8_ascii (utf16 "/data/tombstones")
      (List.forall_iff_forall_mem.mp (by decide))
    rw [Platform.string, narrow]
    decide
  have mode : platform.string (utf16 "766") = ascii "766" := by
    have narrow := platform.string8_ascii (utf16 "766") (List.forall_iff_forall_mem.mp (by decide))
    rw [Platform.string, narrow]
    decide
  rw [allCommands_chmodDir named, path, mode]
  exact ⟨change, fun _ => check, fun four => absurd four (by decide)⟩

/-- The commands for the tombstones fit. -/
theorem tombstones_fit :
    ClientFits (chmodDirCommand (ascii "766") tombstones) ∧ ClientFits (statCommand3 tombstones) :=
  ⟨fun _ => by decide, fun _ => by decide⟩

/-- The commands for the tombstones are read as they are meant. -/
theorem tombstones_read :
    ClientRead dialect (chmodDirCommand (ascii "766") tombstones) ∧
      ClientRead dialect (statCommand3 tombstones) := by
  have path : dialect.plainText false tombstones = true :=
    dialect.plainText_ordinary (.inr (List.cons_ne_nil _ _)) (List.forall_iff_forall_mem.mp (by decide))
  have mode : dialect.plainText false (ascii "766") = true :=
    dialect.plainText_ordinary (.inr (List.cons_ne_nil _ _)) (List.forall_iff_forall_mem.mp (by decide))
  have check := @clientRead_check dialect tombstones (ascii "766")
    ⟨fun _ => tombstones_fit.2, fun four => absurd four (by decide)⟩ path
  exact ⟨(clientRead_chmodDir tombstones_fit.1).mpr ⟨mode, path⟩, check.1 rfl⟩

/-- The strings of a call stay data if and only if they are plain where they stand. -/
theorem stringsStayData_iff (splices : call.splices = true) (fits : FitsBuffers platform self call) :
    StringsStayData platform dialect self call ↔ Harmless platform dialect call := by
  have own : ∀ {P : Command → Prop} (command : Command), command.clients = [] →
      (command.clients ≠ [] → P command) := fun command none some => absurd none some
  have room : AllCommands ClientFits (self.invoke platform call) := allCommands_iff.mpr fits
  refine (allCommands_iff (P := ClientRead dialect)).symm.trans ?_
  cases call with
  | rmFile path =>
    by_cases named : path = utf16 ""
    · subst named
      exact iff_of_true trivial fun some => absurd rfl some
    · have line := (allCommands_rmFile named).mp room
      exact (allCommands_rmFile named).trans
        ((clientRead_rm line).trans (imp_iff_right named).symm)
  | chmodFile path mode =>
    by_cases named : mode = utf16 ""
    · subst named
      exact iff_of_true trivial fun some => absurd rfl some
    · obtain ⟨line, check⟩ := (allCommands_chmodFile named).mp room
      refine (allCommands_chmodFile named).trans ((and_iff_left_of_imp ?_).trans
        ((clientRead_chmod line).trans (imp_iff_right named).symm))
      exact fun read => clientRead_check check ((clientRead_chmod line).mp read).2
  | chmodDir path mode =>
    by_cases named : mode = utf16 "" ∨ path = utf16 ""
    · have nothing : chmodDir platform path mode = .done false := if_pos named
      refine iff_of_true ?_ fun some => absurd named some
      change AllCommands _ (chmodDir platform path mode)
      rw [nothing]
      trivial
    · obtain ⟨line, check⟩ := (allCommands_chmodDir named).mp room
      refine (allCommands_chmodDir named).trans ((and_iff_left_of_imp ?_).trans
        ((clientRead_chmodDir line).trans (imp_iff_right named).symm))
      exact fun read => clientRead_check check ((clientRead_chmodDir line).mp read).2
  | isProcessRunning processname =>
    have line := allCommands_isProcessRunning.mp room
    exact allCommands_isProcessRunning.trans (clientRead_pidof line)
  | getProcessId processname =>
    have line := allCommands_getProcessId.mp room
    exact allCommands_getProcessId.trans (clientRead_pidof line)
  | killByProcessName processname =>
    have line := (allCommands_killByProcessName own).mp room
    exact (allCommands_killByProcessName own).trans (clientRead_pidof line)
  | checkBandwidth_block serverIp user code =>
    have line := (allCommands_checkBandwidth own).mp room
    exact (allCommands_checkBandwidth own).trans
      (forall_congr' fun accepted => clientRead_download accepted (line accepted))
  | collectLogFiles_block zipFilename =>
    have fit := @allCommands_tombstones platform _ tombstones_fit.1 tombstones_fit.2
    have read := @allCommands_tombstones platform (ClientRead dialect) tombstones_read.1
      tombstones_read.2
    have line := (allCommands_collectLogFiles own fit).mp room
    exact (allCommands_collectLogFiles own read).trans
      (forall_congr' fun named => forall_congr' fun zip => clientRead_mv (line named zip))
  | _ => contradiction

/-- The command of `rmFile` for a short path fits. -/
theorem fitsBuffers_rmFile {path : String16} (named : path ≠ utf16 "")
    (short : ClientFits (rmCommand (platform.string path))) :
    FitsBuffers platform self (.rmFile path) :=
  allCommands_iff.mp ((allCommands_rmFile (P := ClientFits) named).mpr short)

/-- A service that has read nothing. -/
def blankService : RjcoreService := ⟨false, utf16 "", utf16 "", utf16 "", utf16 ""⟩

/-- A path without blanks stays data. -/
theorem stringsStayData_plain :
    StringsStayData (.plain false) Shell.posix blankService (.rmFile (utf16 "/sdcard/a")) :=
  (stringsStayData_iff rfl (fitsBuffers_rmFile (by decide) fun _ => by decide)).mpr
    fun _ => by decide

/-- A blank in a path makes it two words. -/
theorem not_stringsStayData : ¬∀ (platform : Platform) (dialect : Shell.Dialect) (self : RjcoreService)
    (call : Call), call.splices = true → FitsBuffers platform self call →
      StringsStayData platform dialect self call := by
  intro stays
  have named : utf16 "/sdcard/a b" ≠ utf16 "" := by decide
  have fits : ClientFits (rmCommand ((Platform.plain false).string (utf16 "/sdcard/a b"))) :=
    fun _ => by decide
  have data := stays (.plain false) Shell.posix blankService (.rmFile (utf16 "/sdcard/a b")) rfl
    (fitsBuffers_rmFile named fits)
  have own := (allCommands_rmFile (P := ClientRead Shell.posix) named).mp (allCommands_iff.mpr data)
  exact absurd ((clientRead_rm fits).mp own) (by decide)

end Rjcore
