import Rjcore.Text.Shell

/-!
# The words of a command line

A shell hands a word over as it stands in the line when all of its bytes stand for themselves.
A line that is printed from such words, from words in single quotes and from operators, with
blanks between them, is split into exactly these.
-/

namespace Shell

open CText

/-- A word whose bytes are known from the line, or an operator. -/
inductive Lexeme
  | word (bytes : Bytes)
  | operator (byte : UInt8)
  deriving DecidableEq

/-- A token is known from the line unless something in it is expanded. -/
def Token.lexeme : Token → Option Lexeme
  | .word bytes =>
    if bytes.all WordByte.literal then some (.word (bytes.map WordByte.byte)) else none
  | .operator byte => some (.operator byte)

/-- What a line is split into, where all of it is known from the line. -/
def lexemes (dialect : Dialect) (line : Bytes) : Option (List Lexeme) :=
  (tokens dialect (Piece.text line).symbols).bind fun tokens => tokens.mapM Token.lexeme

/-- What is printed into a line between two blanks. -/
inductive Item
  /-- A word without quotes. -/
  | bare (bytes : Bytes)
  /-- A word in single quotes. -/
  | quoted (bytes : Bytes)
  /-- An operator. -/
  | operator (byte : UInt8)

namespace Item

/-- The bytes of the line. -/
def text : Item → Bytes
  | .bare bytes => bytes
  | .quoted bytes => 39 :: (bytes ++ [39])
  | .operator byte => [byte]

/-- What the item is meant to be for the shell. -/
def lexeme : Item → Lexeme
  | .bare bytes | .quoted bytes => .word bytes
  | .operator byte => .operator byte

/-- The item can be printed as it is. -/
def Proper (dialect : Dialect) : Item → Prop
  | .bare bytes => dialect.plainText false bytes = true
  | .quoted bytes => 39 ∉ bytes
  | .operator byte => isOperator byte = true

/-- A line of items. -/
def line (items : List Item) : Bytes := [32].intercalate (items.map text)

end Item

/-- The lexemes of a word begun. -/
def begunLexemes (begun : Option Bytes) : List Lexeme := (begun.map Lexeme.word).toList

/-- The lexer reads the next byte in a mode, has completed some lexemes and begun a word. -/
structure State.Holds (state : State) (mode : Mode) (completed : List Lexeme)
    (begun : Option Bytes) : Prop where
  /-- The mode. -/
  mode_eq : state.mode = mode
  /-- The completed tokens. -/
  tokens_eq : state.tokens.mapM Token.lexeme = some completed
  /-- The word. -/
  word_eq : state.word.map (List.map WordByte.byte) = begun
  /-- Every byte of it stands for itself. -/
  literal : ∀ bytes ∈ state.word, bytes.all WordByte.literal = true

/-- Text is read from its front to its end. -/
theorem State.run_text_append (dialect : Dialect) (state : State) (front back : Bytes) :
    state.run dialect (Piece.text (front ++ back)).symbols =
      (state.run dialect (Piece.text front).symbols).run dialect (Piece.text back).symbols := by
  simp only [State.run, Piece.symbols, List.map_append, List.foldl_append]

namespace State.Holds

variable {dialect : Dialect} {state : State} {mode : Mode} {completed : List Lexeme}
  {begun : Option Bytes}

/-- In the beginning there is nothing. -/
theorem start : State.start.Holds .plain [] none := ⟨rfl, rfl, rfl, nofun⟩

/-- A word is begun with the text. -/
theorem isSome_word (holds : state.Holds mode completed begun) :
    state.word.isSome = begun.isSome := by
  rw [← holds.word_eq, Option.isSome_map]

/-- The position plays no part. -/
theorem moved (holds : state.Holds mode completed begun) (position : Nat) :
    State.Holds { state with position := position } mode completed begun :=
  ⟨holds.mode_eq, holds.tokens_eq, holds.word_eq, holds.literal⟩

/-- A byte that stands for itself is added to the word. -/
theorem append (holds : state.Holds mode completed begun) (position : Nat) (byte : UInt8) :
    (state.append position byte true).Holds mode completed (some (begun.getD [] ++ [byte])) := by
  obtain ⟨rfl, tokens, rfl, literal⟩ := holds
  refine ⟨rfl, tokens, ?_, fun bytes member => ?_⟩
  · cases word : state.word <;> simp [State.append, word]
  · cases Option.mem_some_iff.mp member
    cases word : state.word with
    | none => rfl
    | some bytes =>
      have front := literal bytes word
      simpa using front

/-- The word begun is completed. -/
theorem flush (holds : state.Holds mode completed begun) :
    state.flush.Holds mode (completed ++ begunLexemes begun) none := by
  obtain ⟨rfl, tokens, rfl, literal⟩ := holds
  unfold State.flush
  split
  · rename_i word
    exact ⟨rfl, by simpa [word, begunLexemes] using tokens, by rw [word]; rfl, by simp [word]⟩
  · rename_i bytes word
    refine ⟨rfl, ?_, rfl, nofun⟩
    have known := literal bytes word
    simp [List.mapM_append, tokens, Token.lexeme, known, word, begunLexemes]

/-- A plain byte is added to the word. -/
theorem plain_byte (holds : state.Holds .plain completed begun) {byte : UInt8}
    (plain : dialect.plainByte begun.isSome byte = true) :
    (state.step dialect ⟨byte, false⟩).Holds .plain completed
      (some (begun.getD [] ++ [byte])) := by
  rw [← holds.isSome_word] at plain
  rw [step_plain holds.mode_eq plain]
  exact (holds.append state.position byte).moved _

/-- A blank completes the word begun. -/
theorem blank (holds : state.Holds .plain completed begun) :
    (state.step dialect ⟨32, false⟩).Holds .plain (completed ++ begunLexemes begun) none := by
  have flushed : state.scan dialect 32 = state.flush := by
    simp [scan, holds.mode_eq, isBlank]
  refine moved ?_ _
  change State.Holds (state.scan dialect 32) _ _ _
  rw [flushed]
  exact holds.flush

/-- An operator completes the word begun and stands alone. -/
theorem operator (holds : state.Holds .plain completed begun) {byte : UInt8}
    (proper : isOperator byte = true) : (state.step dialect ⟨byte, false⟩).Holds .plain
      (completed ++ begunLexemes begun ++ [.operator byte]) none := by
  have blanks : ∀ byte ∈ ascii ";&|<>()\n", isBlank byte = false :=
    List.forall_iff_forall_mem.mp (by decide)
  have operated : state.scan dialect byte = state.operator byte := by
    simp [scan, holds.mode_eq, proper, blanks byte (of_decide_eq_true proper)]
  refine moved ?_ _
  change State.Holds (state.scan dialect byte) _ _ _
  rw [operated]
  refine ⟨holds.flush.mode_eq, ?_, holds.flush.word_eq, holds.flush.literal⟩
  simp [State.operator, List.mapM_append, holds.flush.tokens_eq, Token.lexeme]

/-- Plain text is added to the word. -/
theorem text (holds : state.Holds .plain completed begun) {bytes : Bytes}
    (plain : dialect.plainText begun.isSome bytes = true) :
    (state.run dialect (Piece.text bytes).symbols).Holds .plain completed
      (some (begun.getD [] ++ bytes)) := by
  induction bytes generalizing state begun with
  | nil =>
    obtain ⟨word, rfl⟩ := Option.isSome_iff_exists.mp plain
    simpa [run, Piece.symbols] using holds
  | cons byte bytes ih =>
    simp only [Dialect.plainText, Bool.and_eq_true] at plain
    have rest := ih (holds.plain_byte plain.1) plain.2
    rw [Option.getD_some, List.append_assoc] at rest
    exact rest

/-- Text in single quotes is added to the word. -/
theorem single (holds : state.Holds .single completed begun) {bytes : Bytes} (inner : 39 ∉ bytes)
    (some_word : begun.isSome = true) :
    (state.run dialect (Piece.text bytes).symbols).Holds .single completed
      (some (begun.getD [] ++ bytes)) := by
  induction bytes generalizing state begun with
  | nil =>
    obtain ⟨word, rfl⟩ := Option.isSome_iff_exists.mp some_word
    simpa [run, Piece.symbols] using holds
  | cons byte bytes ih =>
    rw [List.mem_cons, not_or] at inner
    have read : state.scan dialect byte = state.append state.position byte true := by
      simp [scan, holds.mode_eq, Ne.symm inner.1]
    have next : (state.step dialect ⟨byte, false⟩).Holds .single completed
        (some (begun.getD [] ++ [byte])) := by
      refine moved ?_ _
      change State.Holds (state.scan dialect byte) _ _ _
      rw [read]
      exact holds.append _ byte
    have rest := ih next inner.2 rfl
    rw [Option.getD_some, List.append_assoc] at rest
    exact rest

/-- A word in single quotes. -/
theorem quoted (holds : state.Holds .plain completed none) {bytes : Bytes} (inner : 39 ∉ bytes) :
    (state.run dialect (Piece.text (39 :: (bytes ++ [39]))).symbols).Holds .plain completed
      (some bytes) := by
  have opened : (state.step dialect ⟨39, false⟩).Holds .single completed (some []) := by
    obtain ⟨mode, tokens, word, _⟩ := holds
    have none_begun := Option.map_eq_none_iff.mp word
    have read : state.scan dialect 39 = { state.opened with mode := .single } := by
      rw [scan, mode]
      rfl
    refine moved ?_ _
    change State.Holds (state.scan dialect 39) _ _ _
    rw [read]
    exact ⟨rfl, tokens, by simp [State.opened, none_begun], by simp [State.opened, none_begun]⟩
  have inside := @single dialect _ _ _ opened _ inner rfl
  change State.Holds ((state.step dialect ⟨39, false⟩).run dialect
    (Piece.text (bytes ++ [39])).symbols) _ _ _
  rw [run_text_append]
  generalize (state.step dialect ⟨39, false⟩).run dialect (Piece.text bytes).symbols = last
    at inside ⊢
  have read : last.scan dialect 39 = { last with mode := .plain } := by
    rw [scan, inside.mode_eq]
    rfl
  refine moved ?_ _
  change State.Holds (last.scan dialect 39) _ _ _
  rw [read]
  exact ⟨rfl, inside.tokens_eq, inside.word_eq, inside.literal⟩

/-- An item is completed by what follows it. -/
theorem item (holds : state.Holds .plain completed none) {item : Item}
    (proper : item.Proper dialect) : ∃ completed' begun,
      (state.run dialect (Piece.text item.text).symbols).Holds .plain completed' begun ∧
        completed' ++ begunLexemes begun = completed ++ [item.lexeme] := by
  cases item with
  | bare bytes => exact ⟨completed, some bytes, holds.text proper, rfl⟩
  | quoted bytes => exact ⟨completed, some bytes, holds.quoted proper, rfl⟩
  | operator byte =>
    refine ⟨completed ++ [.operator byte], none, ?_, List.append_nil _⟩
    have alone := @operator dialect _ _ _ holds byte proper
    rwa [begunLexemes, Option.map_none, Option.toList_none, List.append_nil] at alone

/-- The items of a line are completed by what follows it. -/
theorem line (holds : state.Holds .plain completed none) {items : List Item}
    (proper : ∀ item ∈ items, item.Proper dialect) : ∃ completed' begun,
      (state.run dialect (Piece.text (Item.line items)).symbols).Holds .plain completed' begun ∧
        completed' ++ begunLexemes begun = completed ++ items.map Item.lexeme := by
  induction items generalizing state completed with
  | nil => exact ⟨completed, none, holds, rfl⟩
  | cons first rest ih =>
    obtain ⟨completed', begun, read, all⟩ := holds.item (proper first List.mem_cons_self)
    cases rest with
    | nil =>
      rw [Item.line, List.map_singleton, List.intercalate_singleton]
      exact ⟨completed', begun, read, all⟩
    | cons second rest =>
      have blank := @blank dialect _ _ _ read
      rw [all] at blank
      obtain ⟨completed', begun, read, all⟩ := ih blank fun item member =>
        proper item (List.mem_cons_of_mem _ member)
      refine ⟨completed', begun, ?_, ?_⟩
      · rw [Item.line, List.map_cons, List.map_cons, List.intercalate_cons_cons, List.append_assoc,
          run_text_append]
        exact read
      · rw [all, List.append_assoc]
        rfl

end State.Holds

/-- A line of items is split into their lexemes. -/
theorem lexemes_line {dialect : Dialect} {items : List Item}
    (proper : ∀ item ∈ items, item.Proper dialect) :
    lexemes dialect (Item.line items) = some (items.map Item.lexeme) := by
  obtain ⟨completed, begun, holds, all⟩ := State.Holds.start.line proper
  have finished : tokens dialect (Piece.text (Item.line items)).symbols =
      some (State.start.run dialect (Piece.text (Item.line items)).symbols).flush.tokens := by
    simp only [tokens, State.finish, holds.mode_eq]
  rw [lexemes, finished, Option.bind_some, holds.flush.tokens_eq, all]
  rfl

end Shell
