import CardCatalog.Text.Basic

/-!
Stripping takes the ends and nothing else. A text whose first and last characters
are outside the class comes back whole, whatever of the class stood around it.
-/

namespace CardCatalog

namespace Text

variable {p : Char → Bool} {before t after : Text}

theorem dropWhile_append_kept (first : ∀ c, t.head? = some c → p c = false)
    (ends : ∀ c ∈ after, p c = true) :
    (t ++ after).dropWhile p = if t = [] then [] else t ++ after := by
  cases t with
  | nil =>
    have gone := @List.dropWhile_append_of_pos _ p after [] ends
    simpa using gone
  | cons c rest => simp [first c rfl]

theorem stripped_between (starts : ∀ c ∈ before, p c = true)
    (first : ∀ c, t.head? = some c → p c = false) (last : ∀ c, t.getLast? = some c → p c = false)
    (ends : ∀ c ∈ after, p c = true) : stripped p (before ++ t ++ after) = t := by
  rw [stripped, List.append_assoc, List.dropWhile_append_of_pos starts,
    dropWhile_append_kept first ends]
  by_cases empty : t = []
  · simp [empty]
  · have back : ∀ c ∈ after.reverse, p c = true := by simpa using ends
    have outer : ∀ c, t.reverse.head? = some c → p c = false := by simpa using last
    have whole := @dropWhile_append_kept p t.reverse [] outer (by simp)
    rw [if_neg empty, List.reverse_append, List.dropWhile_append_of_pos back]
    rw [List.append_nil] at whole
    simp [whole, empty]

theorem stripped_around (starts : ∀ c ∈ before, p c = true) (free : ∀ c ∈ t, p c = false)
    (ends : ∀ c ∈ after, p c = true) : stripped p (before ++ t ++ after) = t := by
  apply stripped_between starts _ _ ends
  · intro c head
    exact free c (List.mem_of_head? head)
  · intro c last
    exact free c (List.mem_of_getLast? last)

theorem stripped_self (free : ∀ c ∈ t, p c = false) : stripped p t = t := by
  have bare := @stripped_around p [] t [] (by simp) free (by simp)
  simpa using bare

theorem stripped_cons {c : Char} (lost : p c = true) : stripped p (c :: t) = stripped p t := by
  simp [stripped, lost]

theorem stripped_concat {c : Char} (lost : p c = true) : stripped p (t ++ [c]) = stripped p t := by
  rw [stripped, List.dropWhile_append, stripped]
  by_cases empty : t.dropWhile p = []
  · simp [empty, lost]
  · simp [empty, lost]

theorem stripped_ends (p : Char → Bool) (t : Text) :
    (∀ c ∈ (stripped p t).head?, p c = false) ∧ ∀ c ∈ (stripped p t).getLast?, p c = false := by
  have stops (s : Text) : ∀ c ∈ (s.dropWhile p).head?, p c = false := by
    intro c head
    have first := List.head?_dropWhile_not p s
    rw [Option.mem_def.mp head] at first
    simpa using first
  constructor
  · -- nothing is lost at the end but what stood behind, so the beginning stays
    have ends := @List.takeWhile_append_dropWhile _ p (t.dropWhile p).reverse
    have whole := congrArg List.reverse ends
    rw [List.reverse_append, List.reverse_reverse] at whole
    intro c head
    apply stops t c
    have first : (stripped p t).head? = some c := head
    rw [stripped] at first
    rw [← whole, List.head?_append, first]
    rfl
  · intro c last
    rw [stripped, List.getLast?_reverse] at last
    exact stops _ c last

end Text

end CardCatalog
