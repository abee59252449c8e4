import Mathlib.Logic.Function.Basic
import Rjcore.Text.Words

/-!
# A file system

Directories with entries: files, directories and symbolic links. A path is walked component by
component, links are followed on the way, and a directory is reached or not. `mv` moves an entry
into the directory its second operand stands for, or, where that is no directory, gives it the
name that the operand ends with. Nothing but the two entries changes.
-/

namespace Files

open CText

/-- The components of a path. -/
def components (path : Bytes) : List Bytes := words (· = 47) path

/-- A slash divides the components. -/
theorem components_slash (front back : Bytes) :
    components (front ++ 47 :: back) = components front ++ components back :=
  words_append_separator (by decide) front back

/-- A name is one component. -/
theorem components_of_noSlash {bytes : Bytes} (some_byte : bytes ≠ [])
    (noSlash : (47 : UInt8) ∉ bytes) : components bytes = [bytes] := by
  refine (words_run fun byte member => ?_).trans ?_
  · rw [decide_eq_false_iff_not]
    rintro rfl
    exact noSlash member
  · cases bytes with
    | nil => contradiction
    | cons byte bytes => rfl

/-- The name of an entry. -/
@[ext]
structure Name where
  /-- The bytes. -/
  bytes : Bytes
  /-- A name is not empty. -/
  some_byte : bytes ≠ []
  /-- It has no slash. -/
  noSlash : (47 : UInt8) ∉ bytes
  /-- It is none of the names that every directory has. -/
  noDots : bytes ≠ ascii "." ∧ bytes ≠ ascii ".."
  deriving DecidableEq

/-- The names that lead from `/` to what a path stands for, where no link is on the way. -/
def place (path : Bytes) : List Bytes :=
  (components path).foldl (fun front component =>
    if component = ascii "." then front
    else if component = ascii ".." then front.dropLast
    else front ++ [component]) []

/-- A name behind a slash is the last of them. -/
theorem place_name (front : Bytes) (name : Name) :
    place (front ++ 47 :: name.bytes) = place front ++ [name.bytes] := by
  rw [place, components_slash, components_of_noSlash name.some_byte name.noSlash, List.foldl_append]
  change (if _ then _ else if _ then _ else _) = _
  rw [if_neg name.noDots.1, if_neg name.noDots.2]
  rfl

/-- What a name stands for in a directory. -/
inductive Entry (Dir : Type)
  | file (content : Bytes)
  | directory (dir : Dir)
  | link (target : Bytes)
  | special

/-- A file system over some directories. -/
structure FileSystem (Dir : Type) where
  /-- The directory `/`. -/
  root : Dir
  /-- The working directory. -/
  working : Dir
  /-- The directory `..` of a directory. -/
  parent : Dir → Dir
  /-- The entries of a directory. -/
  entry : Dir → Name → Option (Entry Dir)
  /-- So many links are followed in one path. -/
  maxLinks : Nat

variable {Dir : Type}

namespace FileSystem

/-- The directory that a path found in a directory starts from. -/
def origin (fs : FileSystem Dir) (start : Dir) (path : Bytes) : Dir :=
  if path.head? = some 47 then fs.root else start

/-- Components lead from a directory to a directory, through a number of links at most. -/
inductive Walk (fs : FileSystem Dir) : Nat → Dir → List Bytes → Dir → Prop
  | here {links : Nat} {start : Dir} : Walk fs links start [] start
  | dot {links : Nat} {start last : Dir} {component : Bytes} {path : List Bytes}
      (same : component = ascii ".") (rest : Walk fs links start path last) :
      Walk fs links start (component :: path) last
  | dotDot {links : Nat} {start last : Dir} {component : Bytes} {path : List Bytes}
      (up : component = ascii "..") (rest : Walk fs links (fs.parent start) path last) :
      Walk fs links start (component :: path) last
  | into {links : Nat} {start dir last : Dir} {component : Bytes} {path : List Bytes} {name : Name}
      (named : name.bytes = component) (found : fs.entry start name = some (.directory dir))
      (rest : Walk fs links dir path last) : Walk fs links start (component :: path) last
  | follow {links : Nat} {start last : Dir} {component target : Bytes} {path : List Bytes}
      {name : Name} (named : name.bytes = component)
      (found : fs.entry start name = some (.link target))
      (rest : Walk fs links (fs.origin start target) (components target ++ path) last) :
      Walk fs (links + 1) start (component :: path) last

/-- Some components of a path lead to a directory. -/
def Reaches (fs : FileSystem Dir) (path : Bytes) (front : List Bytes) (dir : Dir) : Prop :=
  fs.Walk fs.maxLinks (fs.origin fs.working path) front dir

/-- A path stands for a directory. -/
def Resolves (fs : FileSystem Dir) (path : Bytes) (dir : Dir) : Prop :=
  fs.Reaches path (components path) dir

/-- A path ends with the name of an entry, and what stands before it leads to a directory. -/
structure Locates (fs : FileSystem Dir) (path : Bytes) (dir : Dir) (name : Name) : Prop where
  /-- The last component is the name. -/
  reaches : ∃ front, components path = front ++ [name.bytes] ∧ fs.Reaches path front dir
  /-- There is no slash behind it. -/
  noSlash : path.getLast? ≠ some 47

/-- The directory itself or a directory somewhere below it. -/
inductive Below (fs : FileSystem Dir) (top : Dir) : Dir → Prop
  | self : Below fs top top
  | child {above dir : Dir} {name : Name} (below : Below fs top above)
      (found : fs.entry above name = some (.directory dir)) : Below fs top dir

variable {fs : FileSystem Dir}

/-- Components lead to one directory only, however many links may be followed. -/
theorem Walk.unique {links links' : Nat} {start last other : Dir} {path : List Bytes}
    (walk : fs.Walk links start path last) (walk' : fs.Walk links' start path other) :
    last = other := by
  induction walk generalizing links' other with
  | here =>
    cases walk'
    rfl
  | dot same _ ih =>
    cases walk' with
    | dot _ rest => exact ih rest
    | dotDot up _ => exact absurd (same.symm.trans up) (by decide)
    | into named _ _ => exact absurd (named.trans same) (Name.noDots _).1
    | follow named _ _ => exact absurd (named.trans same) (Name.noDots _).1
  | dotDot up _ ih =>
    cases walk' with
    | dot same _ => exact absurd (same.symm.trans up) (by decide)
    | dotDot _ rest => exact ih rest
    | into named _ _ => exact absurd (named.trans up) (Name.noDots _).2
    | follow named _ _ => exact absurd (named.trans up) (Name.noDots _).2
  | into named found _ ih =>
    cases walk' with
    | dot same _ => exact absurd (named.trans same) (Name.noDots _).1
    | dotDot up _ => exact absurd (named.trans up) (Name.noDots _).2
    | into named' found' rest =>
      obtain rfl := Name.ext (named.trans named'.symm)
      rw [found] at found'
      cases found'
      exact ih rest
    | follow named' found' _ =>
      obtain rfl := Name.ext (named.trans named'.symm)
      rw [found] at found'
      cases found'
  | follow named found _ ih =>
    cases walk' with
    | dot same _ => exact absurd (named.trans same) (Name.noDots _).1
    | dotDot up _ => exact absurd (named.trans up) (Name.noDots _).2
    | into named' found' _ =>
      obtain rfl := Name.ext (named.trans named'.symm)
      rw [found] at found'
      cases found'
    | follow named' found' rest =>
      obtain rfl := Name.ext (named.trans named'.symm)
      rw [found] at found'
      cases found'
      exact ih rest

/-- A walk passes through the directory that the front of its path leads to. -/
theorem Walk.split {links : Nat} {start last : Dir} {front back : List Bytes}
    (walk : fs.Walk links start (front ++ back) last) : ∃ middle left,
      fs.Walk links start front middle ∧ fs.Walk left middle back last := by
  generalize whole : front ++ back = path at walk
  induction walk generalizing front with
  | @here links start =>
    obtain ⟨rfl, rfl⟩ := List.append_eq_nil_iff.mp whole
    exact ⟨start, links, .here, .here⟩
  | @dot links start last component path same rest ih =>
    cases front with
    | nil =>
      subst whole
      exact ⟨start, links, .here, .dot same rest⟩
    | cons first front =>
      cases whole
      obtain ⟨middle, left, before, after⟩ := ih rfl
      exact ⟨middle, left, .dot same before, after⟩
  | @dotDot links start last component path up rest ih =>
    cases front with
    | nil =>
      subst whole
      exact ⟨start, links, .here, .dotDot up rest⟩
    | cons first front =>
      cases whole
      obtain ⟨middle, left, before, after⟩ := ih rfl
      exact ⟨middle, left, .dotDot up before, after⟩
  | @into links start dir last component path name named found rest ih =>
    cases front with
    | nil =>
      subst whole
      exact ⟨start, links, .here, .into named found rest⟩
    | cons first front =>
      cases whole
      obtain ⟨middle, left, before, after⟩ := ih rfl
      exact ⟨middle, left, .into named found before, after⟩
  | @follow links start last component target path name named found rest ih =>
    cases front with
    | nil =>
      subst whole
      exact ⟨start, links + 1, .here, .follow named found rest⟩
    | cons first front =>
      cases whole
      obtain ⟨middle, left, before, after⟩ := ih (List.append_assoc _ _ _)
      exact ⟨middle, left, .follow named found before, after⟩

/-- A name that leads to a directory is one, or a link. -/
theorem Walk.directory_or_link {links : Nat} {start last : Dir} {name : Name}
    (walk : fs.Walk links start [name.bytes] last) :
    (∃ dir, fs.entry start name = some (.directory dir)) ∨
      ∃ target, fs.entry start name = some (.link target) := by
  cases walk with
  | dot same _ => exact absurd same name.noDots.1
  | dotDot up _ => exact absurd up name.noDots.2
  | into named found _ =>
    obtain rfl := Name.ext named
    exact .inl ⟨_, found⟩
  | follow named found _ =>
    obtain rfl := Name.ext named
    exact .inr ⟨_, found⟩

/-! ## Moving -/

section Move

variable [DecidableEq Dir]

/-- The entry of a name in a directory is moved to a name in a directory. -/
def move (fs : FileSystem Dir) (dir : Dir) (name : Name) (toDir : Dir) (toName : Name) :
    FileSystem Dir where
  root := fs.root
  working := fs.working
  parent :=
    match fs.entry dir name with
    | some (.directory moved) => Function.update fs.parent moved toDir
    | _ => fs.parent
  entry other otherName :=
    if other = toDir ∧ otherName = toName then fs.entry dir name
    else if other = dir ∧ otherName = name then none
    else fs.entry other otherName
  maxLinks := fs.maxLinks

/-- What a successful `mv source target` leaves. -/
inductive Moves (fs : FileSystem Dir) (source target : Bytes) : FileSystem Dir → Prop
  | into {dir toDir : Dir} {name : Name} (located : fs.Locates source dir name)
      (found : (fs.entry dir name).isSome) (isDirectory : fs.Resolves target toDir) :
      Moves fs source target (fs.move dir name toDir name)
  | rename {dir toDir : Dir} {name toName : Name} (located : fs.Locates source dir name)
      (found : (fs.entry dir name).isSome) (noDirectory : ∀ other, ¬fs.Resolves target other)
      (place : fs.Locates target toDir toName) :
      Moves fs source target (fs.move dir name toDir toName)

variable {dir toDir : Dir} {name toName : Name}

/-- The entry stands under its new name. -/
theorem move_entry_to (fs : FileSystem Dir) (dir : Dir) (name : Name) (toDir : Dir)
    (toName : Name) : (fs.move dir name toDir toName).entry toDir toName = fs.entry dir name :=
  if_pos ⟨rfl, rfl⟩

/-- Other names stand for what they did. -/
theorem move_entry_other {other : Dir} {otherName : Name}
    (noTarget : ¬(other = toDir ∧ otherName = toName)) (noSource : ¬(other = dir ∧ otherName = name)) :
    (fs.move dir name toDir toName).entry other otherName = fs.entry other otherName := by
  simp only [move, if_neg noTarget, if_neg noSource]

end Move

end FileSystem

end Files
