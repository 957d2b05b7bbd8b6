import CardCatalog.Proofs.Text.Joined
import CardCatalog.Query.Plan

/-!
The keywords of a text are its words without the quotes around them. So a quote at
either end of the text changes nothing, and a blank parts the keywords as it parts the
words.
-/

namespace CardCatalog

namespace Text

variable {w t x y : Text} {b : Char}

theorem keywords_of_words (same : words x = words y) : keywords x = keywords y := by
  rw [keywords, keywords, same]

theorem keywords_append (blank : isBlank b = true) (x y : Text) :
    keywords (x ++ b :: y) = keywords x ++ keywords y := by
  simp [keywords, words_append blank]

theorem keywords_cons (blank : isBlank b = true) (t : Text) : keywords (b :: t) = keywords t :=
  keywords_append blank [] t

theorem keywords_solid (solid : ∀ c ∈ w, isBlank c = false) :
    keywords w = [stripped isQuote w].filter (!·.isEmpty) := by
  by_cases empty : w = []
  · subst empty
    rfl
  · rw [keywords, words_self empty solid, List.map_singleton]

theorem solid_concat (solid : ∀ c ∈ w, isBlank c = false) (last : isBlank b = false) :
    ∀ c ∈ w ++ [b], isBlank c = false := by
  intro c member
  rcases List.mem_append.mp member with inside | here
  · exact solid c inside
  · rwa [List.mem_singleton.mp here]

-- Both inductions carry the word that is being read, up to the first blank.

theorem keywords_quote_solid (solid : ∀ c ∈ w, isBlank c = false) (t : Text) :
    keywords ('"' :: (w ++ t)) = keywords (w ++ t) := by
  have quote : isQuote '"' = true := by decide
  have front : ∀ {v : Text}, (∀ c ∈ v, isBlank c = false) → keywords ('"' :: v) = keywords v := by
    intro v clear
    have whole : ∀ c ∈ '"' :: v, isBlank c = false := by
      simpa using ⟨quote_solid '"' (by simp), clear⟩
    rw [keywords_solid whole, keywords_solid clear, stripped_cons quote]
  induction t generalizing w with
  | nil =>
    rw [List.append_nil]
    exact front solid
  | cons c t ih =>
    cases blank : isBlank c with
    | false =>
      have step := ih (solid_concat solid blank)
      rwa [List.append_assoc, List.singleton_append] at step
    | true => rw [keywords_append blank, ← List.cons_append, keywords_append blank, front solid]

theorem keywords_solid_quote (solid : ∀ c ∈ w, isBlank c = false) (t : Text) :
    keywords (w ++ t ++ ['"']) = keywords (w ++ t) := by
  induction t generalizing w with
  | nil =>
    have whole := solid_concat solid (quote_solid '"' (by simp))
    rw [List.append_nil, keywords_solid whole, keywords_solid solid, stripped_concat (by decide)]
  | cons c t ih =>
    cases blank : isBlank c with
    | false =>
      have step := ih (solid_concat solid blank)
      rwa [List.append_assoc w, List.singleton_append] at step
    | true =>
      have later : keywords (t ++ ['"']) = keywords t := @ih [] (by simp)
      rw [List.append_assoc, List.cons_append, keywords_append blank, keywords_append blank, later]

theorem keywords_cons_quote (t : Text) : keywords ('"' :: t) = keywords t :=
  keywords_quote_solid (w := []) (by simp) t

theorem keywords_concat_quote (t : Text) : keywords (t ++ ['"']) = keywords t :=
  keywords_solid_quote (w := []) (by simp) t

end Text

end CardCatalog
