import CardCatalog.Proofs.Text.Stripped

/-!
Joining texts and taking the result apart again. A text that is single-spaced is
the join of its words; joining such texts by a space gives another one.
-/

namespace CardCatalog

namespace Text

/-- Words with single spaces between them, and at least one of them. -/
structure Spaced (t : Text) : Prop where
  filled : t ≠ []
  single : collapse t = t

theorem space_blank : isBlank ' ' = true := by decide +kernel

theorem quote_solid : ∀ c ∈ ['"'], isBlank c = false := by
  intro c member
  rw [List.mem_singleton.mp member]
  decide +kernel

theorem forall_of_all {P : Char → Prop} [DecidablePred P] {t : Text}
    (all : (t.all fun c => decide (P c)) = true) : ∀ c ∈ t, P c := by
  intro c member
  exact of_decide_eq_true (List.all_eq_true.mp all c member)

section Joined

variable {separator : Text}

theorem joined_cons (w : Text) (ws : List Text) :
    joined separator (w :: ws) = w ++ ws.flatMap (separator ++ ·) := by
  induction ws generalizing w with
  | nil => simp [joined]
  | cons v rest ih =>
    rw [joined_cons_cons, ih v, List.flatMap_cons, List.append_assoc, List.append_assoc]

theorem mem_joined {ts : List Text} {c : Char} (member : c ∈ joined separator ts) :
    c ∈ separator ∨ ∃ t ∈ ts, c ∈ t := by
  cases ts with
  | nil => cases member
  | cons t rest =>
    rw [joined_cons] at member
    rcases List.mem_append.mp member with first | later
    · exact .inr ⟨t, by simp, first⟩
    · obtain ⟨s, listed, inside⟩ := List.mem_flatMap.mp later
      rcases List.mem_append.mp inside with between | found
      · exact .inl between
      · exact .inr ⟨s, List.mem_cons_of_mem t listed, found⟩

theorem infix_joined {ts : List Text} {t : Text} (listed : t ∈ ts) :
    t <:+: joined separator ts := by
  obtain ⟨front, back, rfl⟩ := List.append_of_mem listed
  cases front with
  | nil =>
    rw [List.nil_append, joined_cons]
    exact (List.prefix_append t _).isInfix
  | cons first front =>
    refine ⟨first ++ front.flatMap (separator ++ ·) ++ separator, back.flatMap (separator ++ ·), ?_⟩
    rw [List.cons_append, joined_cons]
    simp

theorem mem_joined_of_mem {ts : List Text} {t : Text} {c : Char} (listed : t ∈ ts)
    (inside : c ∈ t) : c ∈ joined separator ts := (infix_joined listed).subset inside

theorem joined_append {ws vs : List Text} (first : ws ≠ []) (second : vs ≠ []) :
    joined separator (ws ++ vs) = joined separator ws ++ separator ++ joined separator vs := by
  obtain ⟨w, rest, rfl⟩ := List.exists_cons_of_ne_nil first
  obtain ⟨v, more, rfl⟩ := List.exists_cons_of_ne_nil second
  rw [List.cons_append, joined_cons, joined_cons, joined_cons, List.flatMap_append,
    List.flatMap_cons]
  simp

theorem joined_flatMap {α : Type} {f : α → List Text} {xs : List α} (filled : ∀ x ∈ xs, f x ≠ []) :
    joined separator (xs.flatMap f) =
      joined separator (xs.map fun x => joined separator (f x)) := by
  induction xs with
  | nil => rfl
  | cons x rest ih =>
    have tail := ih fun y member => filled y (List.mem_cons_of_mem x member)
    rw [List.flatMap_cons, List.map_cons]
    cases rest with
    | nil => simp [joined]
    | cons y more =>
      have some : (y :: more).flatMap f ≠ [] := by simp [filled y (by simp)]
      rw [joined_append (filled x (by simp)) some, tail, List.map_cons, joined_cons_cons]

end Joined

theorem words_spaced_out {α : Type} (f : α → Text) (t : Text) (xs : List α) :
    words (t ++ xs.flatMap fun x => ' ' :: f x) = words t ++ xs.flatMap fun x => words (f x) := by
  induction xs generalizing t with
  | nil => simp
  | cons x rest ih =>
    rw [List.flatMap_cons, List.cons_append, words_append space_blank, ih (f x), List.flatMap_cons]

theorem words_joined_texts (ts : List Text) : words (joined [' '] ts) = ts.flatMap words := by
  cases ts with
  | nil => rfl
  | cons t rest =>
    rw [joined_cons, List.flatMap_cons]
    exact words_spaced_out id t rest

theorem Spaced.words_ne_nil {t : Text} (spaced : Spaced t) : words t ≠ [] := by
  intro none
  have empty := spaced.single
  rw [collapse, none] at empty
  exact spaced.filled empty.symm

theorem collapse_joined {ts : List Text} (spaced : ∀ t ∈ ts, Spaced t) :
    collapse (joined [' '] ts) = joined [' '] ts := by
  rw [collapse, words_joined_texts, joined_flatMap fun t member => (spaced t member).words_ne_nil]
  have same : (ts.map fun t => joined [' '] (words t)) = ts.map id :=
    List.map_congr_left fun t member => (spaced t member).single
  rw [same, List.map_id]

theorem spaced_word {w : Text} (filled : w ≠ []) (solid : ∀ c ∈ w, isBlank c = false) :
    Spaced w := by
  constructor
  · exact filled
  · rw [collapse, words_self filled solid]
    rfl

theorem spaced_joined {ws : List Text} (filled : ws ≠ [])
    (solid : ∀ w ∈ ws, w ≠ [] ∧ ∀ c ∈ w, isBlank c = false) : Spaced (joined [' '] ws) := by
  constructor
  · obtain ⟨w, rest, rfl⟩ := List.exists_cons_of_ne_nil filled
    rw [joined_cons]
    simp [(solid w (by simp)).1]
  · rw [collapse, words_joined solid]

theorem prepend_joined (before w : Text) (rest : List Text) :
    before ++ joined [' '] (w :: rest) = joined [' '] ((before ++ w) :: rest) := by
  rw [joined_cons, joined_cons, List.append_assoc]

theorem joined_concat (init : List Text) (w after : Text) :
    joined [' '] (init ++ [w]) ++ after = joined [' '] (init ++ [w ++ after]) := by
  by_cases bare : init = []
  · subst bare
    rfl
  · rw [joined_append bare (by simp), joined_append bare (by simp)]
    simp [joined]

theorem words_before {before t : Text} (spaced : Spaced t)
    (solid : ∀ c ∈ before, isBlank c = false) :
    ∃ w rest, words t = w :: rest ∧ words (before ++ t) = (before ++ w) :: rest ∧
      Spaced (before ++ t) := by
  obtain ⟨w, rest, split⟩ := List.exists_cons_of_ne_nil spaced.words_ne_nil
  have clear : ∀ v ∈ (before ++ w) :: rest, v ≠ [] ∧ ∀ c ∈ v, isBlank c = false := by
    intro v member
    rcases List.mem_cons.mp member with rfl | old
    · have listed : w ∈ words t := by simp [split]
      obtain ⟨filled, free⟩ := mem_words listed
      constructor
      · simp [filled]
      · intro c inside
        rcases List.mem_append.mp inside with early | late
        · exact solid c early
        · exact free c late
    · exact mem_words (by rw [split]; exact List.mem_cons_of_mem w old)
  have shape : before ++ t = joined [' '] ((before ++ w) :: rest) := by
    rw [← prepend_joined, ← split, ← collapse, spaced.single]
  rw [shape, words_joined clear]
  exact ⟨w, rest, split, rfl, spaced_joined (by simp) clear⟩

theorem words_after {t after : Text} (spaced : Spaced t)
    (solid : ∀ c ∈ after, isBlank c = false) :
    ∃ init w, words t = init ++ [w] ∧ words (t ++ after) = init ++ [w ++ after] ∧
      Spaced (t ++ after) := by
  obtain ⟨init, w, split⟩ : ∃ init w, words t = init ++ [w] :=
    ⟨_, _, (List.dropLast_concat_getLast spaced.words_ne_nil).symm⟩
  have clear : ∀ v ∈ init ++ [w ++ after], v ≠ [] ∧ ∀ c ∈ v, isBlank c = false := by
    intro v member
    rcases List.mem_append.mp member with old | new
    · exact mem_words (by rw [split]; exact List.mem_append_left [w] old)
    · have listed : w ∈ words t := by simp [split]
      obtain ⟨filled, free⟩ := mem_words listed
      rw [List.mem_singleton.mp new]
      constructor
      · simp [filled]
      · intro c inside
        rcases List.mem_append.mp inside with early | late
        · exact free c early
        · exact solid c late
  have shape : t ++ after = joined [' '] (init ++ [w ++ after]) := by
    rw [← joined_concat, ← split, ← collapse, spaced.single]
  rw [shape, words_joined clear]
  exact ⟨init, w, split, rfl, spaced_joined (by simp) clear⟩

theorem mem_of_mem_words {t w : Text} (member : w ∈ words t) : ∀ c ∈ w, c ∈ t := by
  intro c inside
  have flat : c ∈ (splitOn isBlank t).flatten :=
    List.mem_flatten.mpr ⟨w, (List.mem_filter.mp member).1, inside⟩
  rw [flatten_splitOn] at flat
  exact (List.mem_filter.mp flat).1

section Ends

variable {before t after : Text}

theorem joined_head {ws : List Text} (solid : ∀ w ∈ ws, w ≠ [] ∧ ∀ c ∈ w, isBlank c = false) :
    ∀ c, (joined [' '] ws).head? = some c → isBlank c = false := by
  intro c head
  cases ws with
  | nil => cases head
  | cons w rest =>
    obtain ⟨filled, clear⟩ := solid w (by simp)
    obtain ⟨d, more, rfl⟩ := List.exists_cons_of_ne_nil filled
    rw [joined_cons] at head
    cases head
    exact clear c (by simp)

theorem joined_last {ws : List Text} (solid : ∀ w ∈ ws, w ≠ [] ∧ ∀ c ∈ w, isBlank c = false) :
    ∀ c, (joined [' '] ws).getLast? = some c → isBlank c = false := by
  induction ws with
  | nil => simp [joined]
  | cons w rest ih =>
    obtain ⟨filled, clear⟩ := solid w (by simp)
    have tail := ih fun v member => solid v (List.mem_cons_of_mem w member)
    intro c last
    cases rest with
    | nil => exact clear c (List.mem_of_getLast? last)
    | cons v more =>
      have some : joined [' '] (v :: more) ≠ [] := by
        rw [joined_cons]
        simp [(solid v (by simp)).1]
      rw [joined_cons_cons, List.getLast?_append, List.getLast?_eq_some_getLast some,
        Option.some_or] at last
      exact tail c (by rw [List.getLast?_eq_some_getLast some, last])

theorem trim_padded (starts : ∀ c ∈ before, isBlank c = true) (single : collapse t = t)
    (ends : ∀ c ∈ after, isBlank c = true) : trim (before ++ t ++ after) = t := by
  have solid : ∀ w ∈ words t, w ≠ [] ∧ ∀ c ∈ w, isBlank c = false :=
    fun _ member => mem_words member
  have first := joined_head solid
  have last := joined_last solid
  rw [← collapse, single] at first last
  exact stripped_between starts first last ends

theorem trim_single (single : collapse t = t) : trim t = t := by
  have padded := @trim_padded [] t [] (by simp) single (by simp)
  simpa using padded

end Ends

theorem any_joined {p : Char → Bool} (space : p ' ' = false) (ws : List Text) :
    (joined [' '] ws).any p = ws.any (·.any p) := by
  cases ws with
  | nil => rfl
  | cons w rest =>
    rw [joined_cons, List.any_append, List.any_flatMap, List.any_cons]
    simp [space]

end Text

end CardCatalog
