import BitcoinSpend.Chunk.Assembly
import BitcoinSpend.Text.Blank

/-!
# Words that are put together

The words of texts separated by spaces are the words of each of them in order, and a
text without blanks is one word.
-/

set_option autoImplicit false

namespace BitcoinSpend.Text

/-- A text that is one word: it has a character, and none of them is a blank. -/
structure IsWord (text : String) : Prop where
  nonempty : text.toList ≠ []
  solid : ∀ letter ∈ text.toList, isBlank letter = false

theorem isWord_of_all {text : String} (nonempty : text.toList.isEmpty = false)
    (solid : text.toList.all (!isBlank ·) = true) : IsWord text := by
  constructor
  · exact List.isEmpty_eq_false_iff.mp nonempty
  · simpa using solid

private theorem wordsFrom_space (word before after : List Char) :
    wordsFrom word (before ++ ' ' :: after) = wordsFrom word before ++ wordsFrom [] after := by
  have blank : isBlank ' ' = true := by decide
  induction before generalizing word with
  | nil =>
      simp only [List.nil_append, wordsFrom, if_pos blank]
      split <;> rfl
  | cons letter before ih =>
      rw [List.cons_append, wordsFrom, wordsFrom]
      split
      · split
        · exact ih []
        · rw [ih [], List.cons_append]
      · exact ih (letter :: word)

private theorem wordsFrom_solid (word : List Char) {letters : List Char}
    (solid : ∀ letter ∈ letters, isBlank letter = false) (nonempty : word.reverse ++ letters ≠ []) :
    wordsFrom word letters = [word.reverse ++ letters] := by
  induction letters generalizing word with
  | nil =>
      rw [List.append_nil] at nonempty ⊢
      rw [wordsFrom, if_neg fun empty => nonempty (by simpa using empty)]
  | cons letter letters ih =>
      obtain ⟨first, later⟩ := List.forall_mem_cons.mp solid
      have moved : (letter :: word).reverse ++ letters = word.reverse ++ letter :: letters := by
        rw [List.reverse_cons, List.append_assoc, List.singleton_append]
      rw [wordsFrom, if_neg (by rw [first]; exact Bool.false_ne_true),
        ih (letter :: word) later (moved ▸ nonempty), moved]

theorem words_of_isWord {text : String} (isWord : IsWord text) : words text = [text] := by
  rw [words, wordsFrom_solid [] isWord.solid isWord.nonempty, List.map_singleton,
    List.reverse_nil, List.nil_append, String.ofList_toList]

theorem words_space (before after : String) :
    words (before ++ " " ++ after) = words before ++ words after := by
  have letters : (before ++ " " ++ after).toList = before.toList ++ ' ' :: after.toList := by
    simp
  rw [words, letters, wordsFrom_space, List.map_append, words, words]

private theorem joinWords_cons_cons (first second : String) (rest : List String) :
    Chunk.joinWords (first :: second :: rest) =
      first ++ " " ++ Chunk.joinWords (second :: rest) := by
  apply String.toList_injective
  simp [Chunk.joinWords, String.toList_intercalate, List.intercalate]

/-- The words of several texts are not torn apart or run together. -/
theorem words_joinWords (texts : List String) :
    words (Chunk.joinWords texts) = texts.flatMap words := by
  induction texts with
  | nil => rfl
  | cons first rest ih =>
      cases rest with
      | nil =>
          rw [List.flatMap_singleton]
          rfl
      | cons second rest =>
          rw [joinWords_cons_cons, words_space, ih]
          exact List.flatMap_cons.symm

end BitcoinSpend.Text
