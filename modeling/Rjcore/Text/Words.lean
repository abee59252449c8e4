import Mathlib.Data.List.DropRight
import Rjcore.Text.CString

/-!
# Words

The words of a text, between separators. A separator divides the words of what stands before
it from those of what stands behind it. Cutting a text leaves its words as they are, except
for the last one where the cut falls between two bytes of the same word.
-/

namespace CText

variable {α : Type} (separates : α → Bool)

/-- A run of bytes that is a word unless it is empty. -/
def closed : List α → List (List α)
  | [] => []
  | carry => [carry]

/-- The words of a text behind the begun word. -/
def wordsFrom : List α → List α → List (List α)
  | carry, [] => closed carry
  | carry, byte :: rest =>
    if separates byte then closed carry ++ wordsFrom [] rest
    else wordsFrom (carry ++ [byte]) rest

/-- The words of a text. -/
def words (text : List α) : List (List α) := wordsFrom separates [] text

/-- The run of bytes of one word at the end of a text. -/
def lastRun (text : List α) : List α := text.rtakeWhile fun byte => !separates byte

variable {separates}

/-- A run without a separator continues the begun word. -/
theorem wordsFrom_run {run : List α} (inner : ∀ byte ∈ run, separates byte = false)
    (carry rest : List α) :
    wordsFrom separates carry (run ++ rest) = wordsFrom separates (carry ++ run) rest := by
  induction run generalizing carry with
  | nil => rw [List.nil_append, List.append_nil]
  | cons byte run ih =>
    have first := inner byte List.mem_cons_self
    have others := ih (fun other member => inner other (List.mem_cons_of_mem _ member))
      (carry ++ [byte])
    rw [List.cons_append, wordsFrom, first, if_neg Bool.false_ne_true, others, List.append_assoc]
    rfl

/-- A separator divides the words. -/
theorem words_append_separator {byte : α} (divides : separates byte = true)
    (front back : List α) :
    words separates (front ++ byte :: back) = words separates front ++ words separates back := by
  have general : ∀ carry, wordsFrom separates carry (front ++ byte :: back) =
      wordsFrom separates carry front ++ wordsFrom separates [] back := by
    induction front with
    | nil =>
      intro carry
      exact if_pos divides
    | cons first front ih =>
      intro carry
      rw [List.cons_append, wordsFrom, wordsFrom]
      split
      · rw [ih, List.append_assoc]
      · exact ih _
  exact general []

/-- A run without a separator is one word. -/
theorem words_run {run : List α} (inner : ∀ byte ∈ run, separates byte = false) :
    words separates run = closed run := by
  have whole := wordsFrom_run inner [] []
  rwa [List.append_nil] at whole

/-- A run without a separator that ends at one, or at the end of the text, is the first word. -/
theorem words_run_append {run back : List α} (inner : ∀ byte ∈ run, separates byte = false)
    (ends : ∀ byte ∈ back.head?, separates byte = true) :
    words separates (run ++ back) = closed run ++ words separates back := by
  cases back with
  | nil => rw [List.append_nil, words_run inner]; exact (List.append_nil _).symm
  | cons byte back =>
    have divides := ends byte rfl
    have behind := words_append_separator divides [] back
    rw [List.nil_append] at behind
    rw [words_append_separator divides, words_run inner, behind]
    rfl

/-- What stands behind a run begins with a separator. -/
theorem separates_head_dropWhile (text : List α) :
    ∀ byte ∈ (text.dropWhile fun byte => !separates byte).head?, separates byte = true := by
  intro byte first
  have stop := List.head?_dropWhile_not (fun byte => !separates byte) text
  rw [Option.mem_def.mp first] at stop
  simpa using stop

/-- The first word of a text, empty where there is none. -/
def firstWord (separates : α → Bool) (text : List α) : List α := (words separates text).headD []

/-- Skipping the separators and taking what is none gives the first word. -/
theorem takeWhile_dropWhile_eq_firstWord (text : List α) :
    ((text.dropWhile separates).takeWhile fun byte => !separates byte) =
      firstWord separates text := by
  induction text with
  | nil => rfl
  | cons byte text ih =>
    cases divides : separates byte with
    | true =>
      have behind := words_append_separator divides [] text
      rw [List.nil_append] at behind
      rw [List.dropWhile_cons_of_pos divides, ih, firstWord, firstWord, behind]
      rfl
    | false =>
      have parts := List.takeWhile_append_dropWhile (p := fun byte => !separates byte)
        (l := byte :: text)
      have inner : ∀ other ∈ (byte :: text).takeWhile fun byte => !separates byte,
          separates other = false := by
        intro other member
        simpa using List.mem_takeWhile_imp member
      have split := words_run_append inner (separates_head_dropWhile (byte :: text))
      rw [parts] at split
      rw [List.dropWhile_cons_of_neg (by simp [divides]), firstWord, split,
        List.takeWhile_cons_of_pos (by simp [divides])]
      rfl

/-- A text is a front that ends in a separator, if it is not empty, and its last run. -/
theorem exists_lastRun (text : List α) : ∃ front,
    text = front ++ lastRun separates text ∧
      (∀ byte ∈ lastRun separates text, separates byte = false) ∧
      (front = [] ∨ ∃ before byte, front = before ++ [byte] ∧ separates byte = true) := by
  refine ⟨text.rdropWhile fun byte => !separates byte, ?_, fun byte member => ?_, ?_⟩
  · have whole := congrArg List.reverse
      (List.takeWhile_append_dropWhile (p := fun byte => !separates byte) (l := text.reverse))
    rw [List.reverse_append, List.reverse_reverse] at whole
    exact whole.symm
  · simpa using List.mem_rtakeWhile_imp member
  · rcases List.eq_nil_or_concat (text.rdropWhile fun byte => !separates byte) with
      none | ⟨before, byte, some_front⟩
    · exact .inl none
    · have last := List.rdropWhile_last_not (fun byte => !separates byte) text
        (by rw [some_front]; simp)
      refine .inr ⟨before, byte, some_front.trans List.concat_eq_append, ?_⟩
      simpa [some_front] using last

/-- The cut between two texts falls between two bytes of one word. -/
def Cuts (separates : α → Bool) (front back : List α) : Prop :=
  lastRun separates front ≠ [] ∧ ∃ byte ∈ back.head?, separates byte = false

/-- The run at the end of a text that a cut leaves is a word of it. -/
theorem lastRun_mem {text : List α} (some_run : lastRun separates text ≠ []) :
    lastRun separates text ∈ words separates text := by
  obtain ⟨front, whole, inner, ends⟩ := @exists_lastRun α separates text
  have single : words separates (lastRun separates text) = [lastRun separates text] := by
    rw [words_run inner]
    cases run : lastRun separates text with
    | nil => exact absurd run some_run
    | cons byte run => rfl
  rcases ends with rfl | ⟨before, byte, rfl, divides⟩
  · rw [List.nil_append] at whole
    rw [← whole] at single ⊢
    rw [single]
    exact List.mem_singleton.mpr rfl
  · rw [List.append_assoc] at whole
    have parts := words_append_separator divides before (lastRun separates text)
    rw [List.singleton_append] at whole
    rw [← whole, single] at parts
    rw [parts]
    exact List.mem_append_right _ (List.mem_singleton.mpr rfl)

/-- A word of a text is a word of every longer text, unless the cut behind it falls inside a
word. -/
theorem mem_words_append {front word : List α} (back : List α) (member : word ∈ words separates front) :
    word ∈ words separates (front ++ back) ∨
      (word = lastRun separates front ∧ Cuts separates front back) := by
  cases back with
  | nil =>
    rw [List.append_nil]
    exact .inl member
  | cons byte back =>
    cases divides : separates byte with
    | true =>
      rw [words_append_separator divides]
      exact .inl (List.mem_append_left _ member)
    | false =>
      obtain ⟨ahead, whole, inner, ends⟩ := @exists_lastRun α separates front
      -- a word of the last run is this run, and the cut falls behind it
      have last : word ∈ words separates (lastRun separates front) →
          word = lastRun separates front ∧ Cuts separates front (byte :: back) := by
        intro found
        rw [words_run inner] at found
        cases run : lastRun separates front with
        | nil =>
          rw [run] at found
          exact absurd found List.not_mem_nil
        | cons first run' =>
          rw [run] at found
          refine ⟨List.mem_singleton.mp found, ?_, byte, rfl, divides⟩
          rw [run]
          exact List.cons_ne_nil _ _
      rcases ends with rfl | ⟨before, separator, rfl, separated⟩
      · rw [List.nil_append] at whole
        refine .inr (last ?_)
        rwa [← whole]
      · rw [List.append_assoc, List.singleton_append] at whole
        have short := words_append_separator separated before (lastRun separates front)
        have long := words_append_separator separated before
          (lastRun separates front ++ byte :: back)
        rw [← whole] at short
        rw [← List.cons_append, ← List.append_assoc, ← whole] at long
        rw [short] at member
        rw [long]
        rcases List.mem_append.mp member with early | late
        · exact .inl (List.mem_append_left _ early)
        · exact .inr (last late)

/-- A word behind a begun word is a part of both together. -/
theorem isInfix_of_mem_wordsFrom {carry text word : List α}
    (member : word ∈ wordsFrom separates carry text) : word <:+: carry ++ text := by
  have begun : ∀ {carry : List α} (rest : List α), word ∈ closed carry → word <:+: carry ++ rest := by
    intro carry rest member
    cases carry with
    | nil => exact absurd member List.not_mem_nil
    | cons byte carry =>
      rw [List.mem_singleton.mp member]
      exact (List.prefix_append _ rest).isInfix
  induction text generalizing carry with
  | nil => exact begun [] member
  | cons byte text ih =>
    rw [wordsFrom] at member
    split at member
    · rcases List.mem_append.mp member with first | later
      · exact begun _ first
      · exact (ih later).trans ⟨carry ++ [byte], [], by simp⟩
    · have inside := ih member
      rwa [List.append_assoc] at inside

/-- Text without a separator stands inside of one word wherever it stands. -/
theorem isInfix_iff_mem_words {pattern : List α} (some_pattern : pattern ≠ [])
    (inner : ∀ byte ∈ pattern, separates byte = false) (text : List α) :
    pattern <:+: text ↔ ∃ word ∈ words separates text, pattern <:+: word := by
  constructor
  · rintro ⟨front, back, rfl⟩
    obtain ⟨ahead, whole, innerFront, starts⟩ := @exists_lastRun α separates front
    -- the word reaches from the last separator in front to the first one behind
    let word := lastRun separates front ++ pattern ++ back.takeWhile fun byte => !separates byte
    have innerWord : ∀ byte ∈ word, separates byte = false := by
      intro byte member
      rcases List.mem_append.mp member with early | late
      · rcases List.mem_append.mp early with first | second
        · exact innerFront byte first
        · exact inner byte second
      · simpa using List.mem_takeWhile_imp late
    have tail : words separates (word ++ back.dropWhile fun byte => !separates byte) =
        word :: words separates (back.dropWhile fun byte => !separates byte) := by
      rw [words_run_append innerWord (separates_head_dropWhile back)]
      cases run : word with
      | nil => simp [word, some_pattern] at run
      | cons byte rest => rfl
    have text : front ++ pattern ++ back =
        ahead ++ (word ++ back.dropWhile fun byte => !separates byte) := by
      have parts := List.takeWhile_append_dropWhile (p := fun byte => !separates byte) (l := back)
      conv_lhs => rw [whole, ← parts]
      simp [word]
    have member : word ∈ words separates (front ++ pattern ++ back) := by
      rw [text]
      rcases starts with rfl | ⟨before, byte, rfl, divides⟩
      · rw [List.nil_append, tail]
        exact List.mem_cons_self
      · rw [List.append_assoc, List.singleton_append, words_append_separator divides, tail]
        exact List.mem_append_right _ List.mem_cons_self
    exact ⟨word, member, lastRun separates front, _, rfl⟩
  · rintro ⟨word, member, inside⟩
    have part := isInfix_of_mem_wordsFrom member
    exact inside.trans part

end CText
