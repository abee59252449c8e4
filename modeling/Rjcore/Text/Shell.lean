import Rjcore.Text.CString

/-!
# How a shell reads a spliced command line

A POSIX shell reads a command line byte by byte: blanks end words, operators and newlines
stand alone, quotes and backslashes take bytes literally, and some unquoted bytes start an
expansion. The lexer below keeps, for every byte of a word, its position in the line and
whether it stands for itself, so two readings are equal only when the same bytes of the
line play the same part in them.

A template is a command line with strings spliced into it. The intended reading takes every
spliced byte literally, as if the string had been quoted; the actual reading lexes the bytes
as they are. `staysData_iff` characterizes the templates for which the two agree: every
spliced string consists of bytes without a meaning to the shell, and none that should be a
word of its own is empty.
-/

namespace Shell

open CText

/-- What differs between shells: the unquoted bytes that take part in an expansion. -/
structure Dialect where
  /-- An unquoted byte that is not taken literally inside a word. -/
  expands : UInt8 → Bool
  /-- Parameters, commands and patterns are expanded by every shell. -/
  required : ∀ byte ∈ ascii "$`*?[", expands byte = true
  /-- Letters, digits and the punctuation of paths and addresses are never expanded. -/
  ordinary : ∀ byte ∈ ascii "0123456789ABCDEFGHIJKLMNOPQRSTUVWXYZabcdefghijklmnopqrstuvwxyz./:_-",
    expands byte = false

/-- Space and tab separate words. -/
def isBlank (byte : UInt8) : Bool := byte = 32 || byte = 9

/-- The bytes of operators, and the newline that ends a command. -/
def isOperator (byte : UInt8) : Bool := byte ∈ ascii ";&|<>()\n"

/-- The single quote, the double quote and the backslash. -/
def isQuote (byte : UInt8) : Bool := byte = 39 || byte = 34 || byte = 92

/-- The number sign and the tilde, which have a meaning at the front of a word only. -/
def isLeading (byte : UInt8) : Bool := byte = 35 || byte = 126

/-- How the next byte is read. -/
inductive Mode
  | plain
  | single
  | double
  | escape
  | doubleEscape
  | comment
  deriving DecidableEq, Repr

/-- One byte of a word: where it stands in the line, and whether it stands for itself. -/
structure WordByte where
  /-- Position in the line. -/
  position : Nat
  /-- The byte. -/
  byte : UInt8
  /-- It is taken literally. -/
  literal : Bool
  deriving DecidableEq, Repr

/-- A word or an operator of the command line. -/
inductive Token
  | word (bytes : List WordByte)
  | operator (byte : UInt8)
  deriving DecidableEq, Repr

/-- The lexer between two bytes. -/
structure State where
  /-- Position of the next byte. -/
  position : Nat
  /-- How the next byte is read. -/
  mode : Mode
  /-- The word begun, if any. -/
  word : Option (List WordByte)
  /-- Completed tokens. -/
  tokens : List Token
  deriving DecidableEq, Repr

/-- A byte of the line, marked when the intended reading takes it literally. -/
structure Symbol where
  /-- The byte. -/
  byte : UInt8
  /-- It belongs to a spliced string. -/
  data : Bool
  deriving DecidableEq, Repr

namespace State

/-- The lexer at the front of a line. -/
def start : State := ⟨0, .plain, none, []⟩

/-- Add a byte at a position to the word. -/
def append (state : State) (position : Nat) (byte : UInt8) (literal : Bool) : State :=
  { state with word := some (state.word.getD [] ++ [⟨position, byte, literal⟩]) }

/-- Complete the word begun. -/
def flush (state : State) : State :=
  match state.word with
  | none => state
  | some bytes => { state with word := none, tokens := state.tokens ++ [.word bytes] }

/-- Complete the word begun and add an operator. -/
def operator (state : State) (byte : UInt8) : State :=
  { state.flush with tokens := state.flush.tokens ++ [.operator byte] }

/-- Begin a word, even an empty one. -/
def opened (state : State) : State := { state with word := some (state.word.getD []) }

/-- Read one byte as the shell does. -/
def scan (dialect : Dialect) (state : State) (byte : UInt8) : State :=
  match state.mode with
  | .plain =>
    if isBlank byte then state.flush
    else if isOperator byte then state.operator byte
    else if byte = 39 then { state.opened with mode := .single }
    else if byte = 34 then { state.opened with mode := .double }
    else if byte = 92 then { state with mode := .escape }
    else if state.word.isNone && byte = 35 then { state with mode := .comment }
    else if state.word.isNone && byte = 126 then state.append state.position byte false
    else state.append state.position byte (!dialect.expands byte)
  | .single =>
    if byte = 39 then { state with mode := .plain }
    else state.append state.position byte true
  | .double =>
    if byte = 34 then { state with mode := .plain }
    else if byte = 92 then { state with mode := .doubleEscape }
    else state.append state.position byte (byte ∉ ascii "$`")
  | .escape =>
    -- an escaped newline joins two lines
    if byte = newline then { state with mode := .plain }
    else { state.append state.position byte true with mode := .plain }
  | .doubleEscape =>
    if byte = newline then { state with mode := .double }
    else if byte ∈ ascii "$`\"\\" then
      { state.append state.position byte true with mode := .double }
    else
      { (state.append (state.position - 1) 92 true).append state.position byte true with
        mode := .double }
  | .comment =>
    if byte = newline then { state.operator byte with mode := .plain } else state

/-- Read one symbol: marked bytes literally, the others as the shell does. -/
def step (dialect : Dialect) (state : State) (symbol : Symbol) : State :=
  { (if symbol.data then state.append state.position symbol.byte true
      else state.scan dialect symbol.byte) with position := state.position + 1 }

/-- Read a line. -/
def run (dialect : Dialect) (state : State) (symbols : List Symbol) : State :=
  symbols.foldl (step dialect) state

/-- The tokens at the end of a line; an open quote or a trailing backslash has none. -/
def finish (state : State) : Option (List Token) :=
  match state.mode with
  | .plain | .comment => some state.flush.tokens
  | _ => none

end State

/-- The tokens of a line. -/
def tokens (dialect : Dialect) (symbols : List Symbol) : Option (List Token) :=
  (State.start.run dialect symbols).finish

/-! ## Positions taken literally -/

/-- The positions a list of word bytes takes literally. -/
def literalPositions (bytes : List WordByte) : List Nat :=
  (bytes.filter WordByte.literal).map WordByte.position

/-- The positions a token takes literally. -/
def Token.literals : Token → List Nat
  | .word bytes => literalPositions bytes
  | .operator _ => []

/-- The positions read literally so far. -/
def State.literals (state : State) : List Nat :=
  state.tokens.flatMap Token.literals ++ literalPositions (state.word.getD [])

namespace State

variable (dialect : Dialect) (state : State)

theorem append_literals (position : Nat) (byte : UInt8) (literal : Bool) :
    (state.append position byte literal).literals =
      state.literals ++ if literal then [position] else [] := by
  cases literal <;> simp [literals, append, literalPositions]

theorem flush_literals : state.flush.literals = state.literals := by
  unfold flush
  split
  · rfl
  · rename_i bytes begun
    simp [literals, begun, literalPositions, Token.literals]

theorem operator_literals (byte : UInt8) : (state.operator byte).literals = state.literals := by
  rw [← state.flush_literals]
  simp [operator, literals, Token.literals]

theorem opened_literals : state.opened.literals = state.literals := by
  simp [opened, literals]

/-- Reading a byte adds at most its own position, and that of a backslash just before it. -/
theorem scan_literals (byte : UInt8) : ∃ extra,
    (state.scan dialect byte).literals = state.literals ++ extra ∧
      ∀ position ∈ extra, position = state.position ∨
        state.mode = .doubleEscape ∧ position = state.position - 1 := by
  have none_added : ∀ next : State, next.literals = state.literals → ∃ extra,
      next.literals = state.literals ++ extra ∧ ∀ position ∈ extra,
        position = state.position ∨
          state.mode = .doubleEscape ∧ position = state.position - 1 :=
    fun next same => ⟨[], by simp [same], by simp⟩
  have one_added : ∀ (next : State) (literal : Bool),
      next.literals = (state.append state.position byte literal).literals → ∃ extra,
        next.literals = state.literals ++ extra ∧ ∀ position ∈ extra,
          position = state.position ∨
            state.mode = .doubleEscape ∧ position = state.position - 1 := by
    intro next literal same
    refine ⟨_, same.trans (state.append_literals _ _ _), ?_⟩
    cases literal <;> simp
  unfold scan
  split
  · split
    · exact none_added _ state.flush_literals
    split
    · exact none_added _ (state.operator_literals byte)
    split
    · exact none_added _ state.opened_literals
    split
    · exact none_added _ state.opened_literals
    split
    · exact none_added _ rfl
    split
    · exact none_added _ rfl
    split
    · exact one_added _ false rfl
    · exact one_added _ (!dialect.expands byte) rfl
  · split
    · exact none_added _ rfl
    · exact one_added _ true rfl
  · split
    · exact none_added _ rfl
    split
    · exact none_added _ rfl
    · exact one_added _ _ rfl
  · split
    · exact none_added _ rfl
    · exact one_added _ true rfl
  · rename_i mode
    split
    · exact none_added _ rfl
    split
    · exact one_added _ true rfl
    · refine ⟨[state.position - 1, state.position], ?_, ?_⟩
      · refine ((state.append (state.position - 1) 92 true).append_literals
          state.position byte true).trans ?_
        rw [append_literals]
        simp
      · simp [mode]
  · split
    · exact none_added _ (state.operator_literals byte)
    · exact none_added _ rfl

/-- Reading a symbol adds at most its own position, and that of a backslash before it. -/
theorem step_literals (symbol : Symbol) : ∃ extra,
    (state.step dialect symbol).literals = state.literals ++ extra ∧
      ∀ position ∈ extra, position = state.position ∨
        state.mode = .doubleEscape ∧ position = state.position - 1 := by
  cases marked : symbol.data with
  | true =>
    refine ⟨[state.position], ?_, by simp⟩
    simp only [step, marked, ↓reduceIte]
    exact state.append_literals _ _ true
  | false =>
    simp only [step, marked, Bool.false_eq_true, ↓reduceIte]
    exact state.scan_literals dialect symbol.byte

/-- A line only ever adds literal positions. -/
theorem literals_subset_run (symbols : List Symbol) :
    state.literals ⊆ (state.run dialect symbols).literals := by
  induction symbols generalizing state with
  | nil => exact List.Subset.refl _
  | cons symbol rest ih =>
    obtain ⟨extra, added, _⟩ := state.step_literals dialect symbol
    refine List.Subset.trans ?_ (ih (state.step dialect symbol))
    rw [added]
    exact List.subset_append_left _ _

/-- A position behind the lexer that was not read literally. -/
def Passed (position : Nat) (state : State) : Prop :=
  position ∉ state.literals ∧ position < state.position ∧
    (state.mode = .doubleEscape → position + 1 < state.position)

/-- A position passed by stays passed by. -/
theorem Passed.run {position : Nat} {state : State} (passed : Passed position state)
    (symbols : List Symbol) : Passed position (state.run dialect symbols) := by
  induction symbols generalizing state with
  | nil => exact passed
  | cons symbol rest ih =>
    refine ih ⟨?_, ?_, fun _ => ?_⟩
    · obtain ⟨extra, added, positions⟩ := state.step_literals dialect symbol
      rw [added, List.mem_append]
      rintro (before | new)
      · exact passed.1 before
      · rcases positions position new with same | ⟨escaped, same⟩
        · exact absurd passed.2.1 (by omega)
        · exact absurd (passed.2.2 escaped) (by omega)
    · change position < state.position + 1
      have behind := passed.2.1
      omega
    · change position + 1 < state.position + 1
      have behind := passed.2.1
      omega

/-- Every position read so far lies behind the lexer. -/
structure Fresh (state : State) : Prop where
  /-- Literal positions are behind. -/
  behind : ∀ position ∈ state.literals, position < state.position
  /-- So is a backslash waiting for its byte. -/
  pending : state.mode = .doubleEscape → 0 < state.position

/-- Reading keeps the positions behind the lexer. -/
theorem Fresh.step {dialect : Dialect} {state : State} (fresh : state.Fresh) (symbol : Symbol) :
    (state.step dialect symbol).Fresh := by
  refine ⟨?_, fun _ => Nat.succ_pos state.position⟩
  intro position member
  obtain ⟨extra, added, positions⟩ := state.step_literals dialect symbol
  rw [added, List.mem_append] at member
  change position < state.position + 1
  rcases member with before | new
  · exact Nat.lt_succ_of_lt (fresh.behind position before)
  · rcases positions position new with same | ⟨escaped, same⟩
    · omega
    · have := fresh.pending escaped
      omega

/-- Reading a line keeps the positions behind the lexer. -/
theorem Fresh.run {dialect : Dialect} {state : State} (fresh : state.Fresh)
    (symbols : List Symbol) : (state.run dialect symbols).Fresh := by
  induction symbols generalizing state with
  | nil => exact fresh
  | cons symbol rest ih => exact ih (fresh.step symbol)

end State

/-! ## Bytes without a meaning -/

/-- A byte that the shell takes literally outside quotes, inside a word already begun or at
the front of one. -/
def Dialect.plainByte (dialect : Dialect) (begun : Bool) (byte : UInt8) : Bool :=
  !isBlank byte && !isOperator byte && !isQuote byte && (begun || !isLeading byte) &&
    !dialect.expands byte

namespace State

variable {dialect : Dialect} {state : State}

/-- A plain byte is read the same whether marked or not. -/
theorem step_plain {byte : UInt8} (outside : state.mode = .plain)
    (plain : dialect.plainByte state.word.isSome byte = true) :
    state.step dialect ⟨byte, false⟩ = state.step dialect ⟨byte, true⟩ := by
  simp only [Dialect.plainByte, Bool.and_eq_true, Bool.not_eq_true', Bool.or_eq_true] at plain
  obtain ⟨⟨⟨⟨blank, operator⟩, quote⟩, leading⟩, expands⟩ := plain
  have quotes : byte ≠ 39 ∧ byte ≠ 34 ∧ byte ≠ 92 := by
    refine ⟨?_, ?_, ?_⟩ <;> rintro rfl <;> exact absurd quote (by decide)
  have fronts : (state.word.isNone && byte = 35) = false ∧
      (state.word.isNone && byte = 126) = false := by
    rcases leading with begun | front
    · cases word : state.word <;> simp_all
    · constructor <;> rw [Bool.and_eq_false_iff, decide_eq_false_iff_not] <;> right <;>
        rintro rfl <;> exact absurd front (by decide)
  simp only [step, scan, outside, blank, operator, quotes.1, quotes.2.1, quotes.2.2, fronts.1,
    fronts.2, expands, Bool.false_eq_true, ↓reduceIte, Bool.not_false]

/-- Any other byte read outside quotes is passed by. -/
theorem step_passed {byte : UInt8} (fresh : state.Fresh) (outside : state.mode = .plain)
    (special : dialect.plainByte state.word.isSome byte = false) :
    Passed state.position (state.step dialect ⟨byte, false⟩) := by
  have unread : (state.scan dialect byte).literals = state.literals ∧
      (state.scan dialect byte).mode ≠ .doubleEscape := by
    have flushed : state.flush.mode = .plain := by
      unfold flush
      split <;> exact outside
    simp only [scan, outside]
    split
    · exact ⟨state.flush_literals, by simp [flushed]⟩
    split
    · exact ⟨state.operator_literals byte, by simp [operator, flushed]⟩
    split
    · exact ⟨state.opened_literals, by simp⟩
    split
    · exact ⟨state.opened_literals, by simp⟩
    split
    · exact ⟨rfl, by simp⟩
    split
    · exact ⟨rfl, by simp⟩
    split
    · exact ⟨by simp [append_literals], by simp [append, outside]⟩
    · -- the byte is neither a separator nor a quote nor leading, so it must expand
      rename_i blank operator single double backslash comment tilde
      have expands : dialect.expands byte = true := by
        by_contra ordinary
        have quote : isQuote byte = false := by
          simp [isQuote, single, double, backslash]
        have front : (state.word.isSome || !isLeading byte) = true := by
          cases word : state.word <;> simp_all [isLeading]
        simp_all [Dialect.plainByte]
      exact ⟨by simp [append_literals, expands], by simp [append, outside]⟩
  simp only [step, Bool.false_eq_true, ↓reduceIte]
  refine ⟨?_, Nat.lt_succ_self _, fun escaped => absurd escaped unread.2⟩
  intro member
  change state.position ∈ (state.scan dialect byte).literals at member
  rw [unread.1] at member
  exact absurd (fresh.behind _ member) (Nat.lt_irrefl _)

end State

/-! ## Templates -/

/-- A part of a command line: text of the program, or a string spliced in. -/
inductive Piece
  | text (bytes : Bytes)
  | data (bytes : Bytes)

/-- A command line with strings spliced into it. -/
abbrev Template : Type := List Piece

/-- The bytes of a piece, marked when they are data. -/
def Piece.symbols : Piece → List Symbol
  | .text bytes => bytes.map (⟨·, false⟩)
  | .data bytes => bytes.map (⟨·, true⟩)

/-- The intended reading: data taken literally. -/
def Template.symbols (template : Template) : List Symbol := template.flatMap Piece.symbols

/-- The line as the shell receives it, where nothing tells data from text. -/
def Template.spliced (template : Template) : List Symbol :=
  template.symbols.map fun symbol => ⟨symbol.byte, false⟩

/-- How the next byte is read, and whether a word has begun. -/
abbrev Shape : Type := Mode × Bool

/-- The shape of a lexer state. -/
def State.shape (state : State) : Shape := (state.mode, state.word.isSome)

/-- The dialect that expands nothing beyond what every shell does. -/
def posix : Dialect where
  expands byte := byte ∈ ascii "$`*?["
  required byte member := by simpa using member
  ordinary := List.forall_iff_forall_mem.mp (by decide)

/-- How one byte of text changes the shape. -/
def shapeStep (shape : Shape) (byte : UInt8) : Shape :=
  (State.scan posix ⟨0, shape.1, if shape.2 then some [] else none, []⟩ byte).shape

/-- The shape after a byte does not depend on the dialect, the position or the tokens. -/
theorem State.scan_shape (dialect : Dialect) (state : State) (byte : UInt8) :
    (state.scan dialect byte).shape = shapeStep state.shape byte := by
  obtain ⟨position, mode, word, tokens⟩ := state
  cases mode <;> cases word <;>
    simp only [scan, shapeStep, shape, Option.isSome_none, Option.isSome_some, Option.isNone_none,
      Option.isNone_some, Bool.true_and, Bool.false_and, ↓reduceIte, Bool.false_eq_true] <;>
    split_ifs <;> rfl

/-- Data never stands inside quotes, and the line ends outside them. -/
def Template.check : Shape → Template → Bool
  | shape, [] => shape.1 = .plain || shape.1 = .comment
  | shape, .text bytes :: rest => check (bytes.foldl shapeStep shape) rest
  | shape, .data _ :: rest => shape.1 = .plain && check (.plain, true) rest

/-- No string that should be a word of its own is empty. -/
def Template.Filled : Shape → Template → Prop
  | _, [] => True
  | shape, .text bytes :: rest => Filled (bytes.foldl shapeStep shape) rest
  | shape, .data bytes :: rest => (shape.2 = true ∨ bytes ≠ []) ∧ Filled (.plain, true) rest

/-- A string without a meaning to the shell, spliced into a word already begun or making
up the front of one. -/
def Dialect.plainText (dialect : Dialect) : Bool → Bytes → Bool
  | begun, [] => begun
  | begun, byte :: rest => dialect.plainByte begun byte && dialect.plainText true rest

/-- Plain text behind plain text is plain. -/
theorem Dialect.plainText_append {dialect : Dialect} {begun : Bool} {front back : Bytes}
    (plain : dialect.plainText begun front = true) (plain' : dialect.plainText true back = true) :
    dialect.plainText begun (front ++ back) = true := by
  induction front generalizing begun with
  | nil =>
    obtain rfl : begun = true := plain
    exact plain'
  | cons byte front ih =>
    simp only [Dialect.plainText, Bool.and_eq_true] at plain
    simp only [List.cons_append, Dialect.plainText, Bool.and_eq_true]
    exact ⟨plain.1, ih plain.2⟩

/-- Text that every shell takes literally is plain. -/
theorem Dialect.plainText_ordinary (dialect : Dialect) {begun : Bool} {text : Bytes}
    (some_text : begun = true ∨ text ≠ [])
    (ordinary : ∀ byte ∈ text,
      byte ∈ ascii "0123456789ABCDEFGHIJKLMNOPQRSTUVWXYZabcdefghijklmnopqrstuvwxyz./:_-") :
    dialect.plainText begun text = true := by
  have each : ∀ byte ∈
      ascii "0123456789ABCDEFGHIJKLMNOPQRSTUVWXYZabcdefghijklmnopqrstuvwxyz./:_-",
      isBlank byte = false ∧ isOperator byte = false ∧ isQuote byte = false ∧
        isLeading byte = false :=
    List.forall_iff_forall_mem.mp (by decide)
  induction text generalizing begun with
  | nil => simpa [Dialect.plainText] using some_text
  | cons byte text ih =>
    obtain ⟨blank, operator, quote, leading⟩ := each byte (ordinary byte List.mem_cons_self)
    have expands := dialect.ordinary byte (ordinary byte List.mem_cons_self)
    have rest := @ih true (.inl rfl) fun other member => ordinary other (List.mem_cons_of_mem _ member)
    simp [Dialect.plainText, Dialect.plainByte, blank, operator, quote, leading, expands, rest]

/-- Every spliced string is plain where it stands. -/
def Template.Plain (dialect : Dialect) : Shape → Template → Prop
  | _, [] => True
  | shape, .text bytes :: rest => Plain dialect (bytes.foldl shapeStep shape) rest
  | shape, .data bytes :: rest =>
    dialect.plainText shape.2 bytes = true ∧ Plain dialect (.plain, true) rest

/-- The shell reads the line as intended: every string is, or is part of, the one word it
was spliced into, each of its bytes standing for itself, and the rest of the line is the
command of the template. -/
def Template.StaysData (dialect : Dialect) (template : Template) : Prop :=
  template.Filled (.plain, false) ∧
    tokens dialect template.spliced = tokens dialect template.symbols

/-! ## When the two readings agree -/

namespace State

variable {dialect : Dialect} {state : State}

/-- Literal data leaves the lexer outside quotes, in a word when there is any. -/
theorem run_data_shape (outside : state.mode = .plain) (bytes : Bytes)
    (filled : state.word.isSome = true ∨ bytes ≠ []) :
    (state.run dialect (Piece.data bytes).symbols).shape = (.plain, true) := by
  induction bytes generalizing state with
  | nil => simpa [shape, run, Piece.symbols, outside] using filled
  | cons byte rest ih => exact @ih (state.step dialect ⟨byte, true⟩) outside (.inl rfl)

/-- Text changes the shape byte by byte. -/
theorem run_text_shape (bytes : Bytes) :
    (state.run dialect (Piece.text bytes).symbols).shape = bytes.foldl shapeStep state.shape := by
  induction bytes generalizing state with
  | nil => rfl
  | cons byte rest ih =>
    rw [List.foldl_cons, ← scan_shape dialect]
    exact @ih (state.step dialect ⟨byte, false⟩)

/-- Plain data is read the same whether marked or not. -/
theorem run_plain (outside : state.mode = .plain) {bytes : Bytes}
    (plain : dialect.plainText state.word.isSome bytes = true) :
    state.run dialect (Piece.text bytes).symbols =
      state.run dialect (Piece.data bytes).symbols := by
  induction bytes generalizing state with
  | nil => rfl
  | cons byte rest ih =>
    simp only [Dialect.plainText, Bool.and_eq_true] at plain
    simp only [run, Piece.symbols, List.map_cons, List.foldl_cons, step_plain outside plain.1]
    exact @ih (state.step dialect ⟨byte, true⟩) outside plain.2

/-- Other data leaves a position that only the marked reading takes literally. -/
theorem run_special (outside : state.mode = .plain) (fresh : state.Fresh) {bytes : Bytes}
    (filled : state.word.isSome = true ∨ bytes ≠ [])
    (special : dialect.plainText state.word.isSome bytes = false) :
    ∃ position, Passed position (state.run dialect (Piece.text bytes).symbols) ∧
      position ∈ (state.run dialect (Piece.data bytes).symbols).literals := by
  induction bytes generalizing state with
  | nil =>
    rw [Dialect.plainText] at special
    simp [special] at filled
  | cons byte rest ih =>
    cases plain : dialect.plainByte state.word.isSome byte with
    | true =>
      simp only [Dialect.plainText, plain, Bool.true_and] at special
      have next := @ih (state.step dialect ⟨byte, true⟩) outside
        (fresh.step _) (.inl rfl) special
      simpa only [run, Piece.symbols, List.map_cons, List.foldl_cons, step_plain outside plain]
        using next
    | false =>
      refine ⟨state.position, (step_passed fresh outside plain).run dialect _, ?_⟩
      have read : state.position ∈ (state.step dialect ⟨byte, true⟩).literals := by
        change state.position ∈ (state.append state.position byte true).literals
        simp [append_literals]
      exact literals_subset_run dialect (state.step dialect ⟨byte, true⟩) _ read

/-- The tokens of a finished line carry exactly the literal positions read. -/
theorem finish_literals {result : List Token} (finished : state.finish = some result) :
    result.flatMap Token.literals = state.literals := by
  have flushed : state.flush.tokens.flatMap Token.literals = state.literals := by
    rw [← state.flush_literals]
    unfold flush
    split <;> rename_i word <;> simp [literals, word, literalPositions]
  unfold finish at finished
  split at finished <;> cases finished <;> exact flushed

end State

variable {dialect : Dialect}

/-- A checked template ends outside quotes in the intended reading. -/
theorem Template.finish_symbols {template : Template} {state : State}
    (checked : template.check state.shape = true) (filled : template.Filled state.shape) :
    ∃ result, (state.run dialect template.symbols).finish = some result := by
  induction template generalizing state with
  | nil =>
    obtain ⟨position, mode, word, tokens⟩ := state
    cases mode <;> first | exact ⟨_, rfl⟩ | simp [check, State.shape] at checked
  | cons piece rest ih =>
    simp only [symbols, List.flatMap_cons, State.run, List.foldl_append]
    cases piece with
    | text bytes =>
      have shape := @State.run_text_shape dialect state bytes
      apply @ih (state.run dialect (Piece.text bytes).symbols)
      · rw [shape]; exact checked
      · rw [shape]; exact filled
    | data bytes =>
      simp only [check, Bool.and_eq_true, decide_eq_true_eq] at checked
      have shape := @State.run_data_shape dialect state checked.1 bytes filled.1
      apply @ih (state.run dialect (Piece.data bytes).symbols)
      · rw [shape]; exact checked.2
      · rw [shape]; exact filled.2

/-- A position that only one reading takes literally keeps the two apart to the end. -/
theorem State.finish_ne {raw marked : State} {position : Nat}
    (passed : Passed position raw) (read : position ∈ marked.literals) {result : List Token}
    (finished : marked.finish = some result) : raw.finish ≠ marked.finish := by
  intro same
  rw [finished] at same
  apply passed.1
  rw [← finish_literals same, finish_literals finished]
  exact read

/-- On a checked template the readings agree exactly when every spliced string is plain. -/
theorem Template.readings_agree_iff {template : Template} {state : State} (fresh : state.Fresh)
    (checked : template.check state.shape = true) (filled : template.Filled state.shape) :
    (state.run dialect template.spliced).finish = (state.run dialect template.symbols).finish ↔
      template.Plain dialect state.shape := by
  induction template generalizing state with
  | nil => exact iff_of_true rfl trivial
  | cons piece rest ih =>
    cases piece with
    | text bytes =>
      have shape := @State.run_text_shape dialect state bytes
      have agree := @ih (state.run dialect (Piece.text bytes).symbols) (fresh.run _)
        (by rw [shape]; exact checked) (by rw [shape]; exact filled)
      rw [shape] at agree
      simpa [Plain, spliced, symbols, Piece.symbols, State.run, Function.comp_def] using agree
    | data bytes =>
      simp only [check, Bool.and_eq_true, decide_eq_true_eq] at checked
      have shape := @State.run_data_shape dialect state checked.1 bytes filled.1
      have onward : check (state.run dialect (Piece.data bytes).symbols).shape rest = true ∧
          Filled (state.run dialect (Piece.data bytes).symbols).shape rest := by
        rw [shape]
        exact ⟨checked.2, filled.2⟩
      have raw : state.run dialect (spliced (.data bytes :: rest)) =
          (state.run dialect (Piece.text bytes).symbols).run dialect (spliced rest) := by
        simp [spliced, symbols, Piece.symbols, State.run, Function.comp_def]
      have marked : state.run dialect (symbols (.data bytes :: rest)) =
          (state.run dialect (Piece.data bytes).symbols).run dialect (symbols rest) := by
        simp [symbols, State.run]
      rw [raw, marked, Plain]
      cases plain : dialect.plainText state.word.isSome bytes with
      | true =>
        have agree := ih (fresh.run _) onward.1 onward.2
        rw [shape] at agree
        rw [State.run_plain checked.1 plain, agree]
        simp [State.shape, plain]
      | false =>
        obtain ⟨position, passed, read⟩ := State.run_special checked.1 fresh filled.1 plain
        obtain ⟨result, finished⟩ := @finish_symbols dialect _ _ onward.1 onward.2
        have apart := State.finish_ne (passed.run dialect (spliced rest))
          (State.literals_subset_run dialect _ _ read) finished
        exact iff_of_false apart (by simp [State.shape, plain])

/-- A plain string that should be a word of its own is not empty. -/
theorem Template.filled_of_plain {template : Template} {shape : Shape}
    (plain : template.Plain dialect shape) : template.Filled shape := by
  induction template generalizing shape with
  | nil => trivial
  | cons piece rest ih =>
    cases piece with
    | text bytes => exact ih plain
    | data bytes =>
      refine ⟨?_, ih plain.2⟩
      cases bytes with
      | nil => exact .inl plain.1
      | cons byte tail => exact .inr (List.cons_ne_nil _ _)

/-- A checked template stays data exactly when every spliced string is plain. -/
theorem Template.staysData_iff {template : Template}
    (checked : template.check (.plain, false) = true) :
    template.StaysData dialect ↔ template.Plain dialect (.plain, false) := by
  have fresh : State.start.Fresh := ⟨by simp [State.start, State.literals, literalPositions],
    by simp [State.start]⟩
  constructor
  · intro stays
    exact (@readings_agree_iff dialect _ .start fresh checked stays.1).mp stays.2
  · intro plain
    have filled := filled_of_plain plain
    exact ⟨filled, (@readings_agree_iff dialect _ .start fresh checked filled).mpr plain⟩

end Shell
