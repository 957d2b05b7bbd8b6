import CardCatalog.Proofs.Query.ItemScopes
import CardCatalog.Proofs.Query.PhraseSpacing
import CardCatalog.Proofs.Query.ScopeSpacing
import CardCatalog.Proofs.Query.Shape
import CardCatalog.Index.Matching

/-!
What a segment asks for, word by word: its scopes, its phrases and the words beside them.
The sense of two texts with a blank between them is the sense of the one and of the other,
and a card fits a segment by its sense alone, so that it does not matter which blanks there
are and which of the clauses stand together.
-/

namespace CardCatalog

/-- The words of a text by what they are. A quotation of blanks is a phrase without words. -/
structure Sense where
  scopes : List FieldScope
  phrases : List (List Text)
  loose : List Text

namespace Sense

instance : Append Sense :=
  ⟨fun s t => ⟨s.scopes ++ t.scopes, s.phrases ++ t.phrases, s.loose ++ t.loose⟩⟩

/-- Some word beside the phrases has a letter or a number in it. -/
def Lettered (s : Sense) : Prop := ∃ w ∈ s.loose, w.any Text.isAlphanumeric = true

def Asks (s : Sense) : Prop := s.scopes ≠ [] ∨ (∃ ws ∈ s.phrases, ws ≠ []) ∨ s.Lettered

/-- Scopes and phrases all have to be there, and of the other words one. -/
structure Fits (columns : List Text) (card : Card) (fields : List WeightedField) (s : Sense) :
    Prop where
  scopes : ∀ scope ∈ s.scopes, Holds.leaf columns card (.field scope.field scope.value)
  phrases : ∀ ws ∈ s.phrases, ws ≠ [] →
    Holds.leaf columns card (.phrase (Text.joined [' '] ws) fields)
  loose : s.Lettered → ∃ w ∈ s.loose, Holds.leaf columns card (.fuzzy w fields)

section Append

variable {s t : Sense}

theorem lettered_append : (s ++ t).Lettered ↔ s.Lettered ∨ t.Lettered := by
  have both : (s ++ t).loose = s.loose ++ t.loose := rfl
  simp only [Lettered, both, List.mem_append, or_and_right, exists_or]

theorem unlettered {scopes : List FieldScope} {phrases : List (List Text)} :
    ¬ (Sense.mk scopes phrases []).Lettered := by simp [Lettered]

theorem asks_append (asks : s.Asks) (t : Sense) : (s ++ t).Asks := by
  rcases asks with scopes | ⟨ws, among, filled⟩ | lettered
  · exact .inl (List.append_ne_nil_of_left_ne_nil scopes _)
  · exact .inr (.inl ⟨ws, List.mem_append_left _ among, filled⟩)
  · exact .inr (.inr (lettered_append.mpr (.inl lettered)))

end Append

end Sense

namespace Holds

variable {columns : List Text} {card : Card} {fields : List WeightedField} {t u w : Text}

theorem fuzzy_words : leaf columns card (.fuzzy t fields) ↔
    ∃ w ∈ Text.words t, leaf columns card (.fuzzy w fields) := by
  have terms (term : Text) : term ∈ Analysis.terms t ↔
      ∃ w ∈ Text.words t, term ∈ Analysis.terms w := by
    simp only [Analysis.mem_terms, Analysis.runs_words t, List.mem_flatMap]
    grind
  simp only [leaf, terms]
  grind

theorem phrase_words (same : Text.words t = Text.words u) :
    leaf columns card (.phrase t fields) ↔ leaf columns card (.phrase u fields) := by
  have terms : Analysis.terms t = Analysis.terms u := by
    rw [Analysis.terms, Analysis.terms, Analysis.runs_of_words same]
  rw [leaf, leaf, terms]

theorem clause_iff {c : Clause} : clause columns card c ↔ ∀ l ∈ c.leaves, leaf columns card l := by
  cases c with
  | one l => simp [clause, Clause.leaves]
  | all ls => rfl

theorem lettered_of_fuzzy (holds : leaf columns card (.fuzzy w fields)) :
    w.any Text.isAlphanumeric = true := by
  obtain ⟨_, _, _, term, found, _⟩ := holds
  obtain ⟨run, inside, _, _⟩ := Analysis.mem_terms.mp found
  obtain ⟨filled, letters⟩ := Analysis.mem_runs inside
  obtain ⟨c, rest, rfl⟩ := List.exists_cons_of_ne_nil filled
  obtain ⟨among, letter⟩ := letters c (by simp)
  exact List.any_eq_true.mpr ⟨c, among, letter⟩

end Holds

namespace Sense

section Fits

variable {s t : Sense} {columns : List Text} {card : Card} {fields : List WeightedField}

/-- A choice of words is one choice, so the senses must not both have one. -/
theorem fits_append (alone : ¬ (s.Lettered ∧ t.Lettered)) :
    (s ++ t).Fits columns card fields ↔
      s.Fits columns card fields ∧ t.Fits columns card fields := by
  have lettered {u : Sense} {w : Text} (member : w ∈ u.loose)
      (found : Holds.leaf columns card (.fuzzy w fields)) : u.Lettered :=
    ⟨w, member, Holds.lettered_of_fuzzy found⟩
  constructor
  · rintro ⟨scopes, phrases, loose⟩
    constructor
    · refine ⟨fun scope member => scopes scope (List.mem_append_left _ member),
        fun ws member => phrases ws (List.mem_append_left _ member), fun own => ?_⟩
      -- the word that was found has a letter, so it is of the one sense that has any
      obtain ⟨w, member, found⟩ := loose (lettered_append.mpr (.inl own))
      rcases List.mem_append.mp member with first | second
      · exact ⟨w, first, found⟩
      · exact absurd ⟨own, lettered second found⟩ alone
    · refine ⟨fun scope member => scopes scope (List.mem_append_right _ member),
        fun ws member => phrases ws (List.mem_append_right _ member), fun own => ?_⟩
      obtain ⟨w, member, found⟩ := loose (lettered_append.mpr (.inr own))
      rcases List.mem_append.mp member with first | second
      · exact absurd ⟨lettered first found, own⟩ alone
      · exact ⟨w, second, found⟩
  · rintro ⟨front, back⟩
    refine ⟨fun scope member => ?_, fun ws member => ?_, fun either => ?_⟩
    · exact (List.mem_append.mp member).elim (front.scopes scope) (back.scopes scope)
    · exact (List.mem_append.mp member).elim (front.phrases ws) (back.phrases ws)
    · rcases lettered_append.mp either with own | own
      · obtain ⟨w, member, found⟩ := front.loose own
        exact ⟨w, List.mem_append_left _ member, found⟩
      · obtain ⟨w, member, found⟩ := back.loose own
        exact ⟨w, List.mem_append_right _ member, found⟩

theorem fits_more (lettered : s.Lettered) (fits : s.Fits columns card fields) (ws : List Text) :
    (s ++ ⟨[], [], ws⟩).Fits columns card fields := by
  have scopes : (s ++ ⟨[], [], ws⟩).scopes = s.scopes := List.append_nil _
  have phrases : (s ++ ⟨[], [], ws⟩).phrases = s.phrases := List.append_nil _
  refine ⟨scopes ▸ fits.scopes, phrases ▸ fits.phrases, fun _ => ?_⟩
  obtain ⟨w, member, found⟩ := fits.loose lettered
  exact ⟨w, List.mem_append_left ws member, found⟩

end Fits

end Sense

namespace Phrase

theorem words_phrase {t v : Text} (member : v ∈ phrases t) : Text.words v = [] ↔ v = [] := by
  have reads := reads_pieces t
  rw [phrases] at member
  generalize Scan.pieces find t = ps at reads member
  induction reads with
  | done => cases member
  | loose _ _ _ ih => exact ih member
  | quotation free _ ih =>
    rcases List.mem_cons.mp member with rfl | later
    · constructor
      · intro none
        rw [Text.words_trim] at none
        exact Text.trim_eq_nil none
      · intro empty
        rw [empty]
        rfl
    · exact ih later
  | @number n r ps read _ ih =>
    rcases List.mem_cons.mp member with rfl | later
    · obtain ⟨filled, numeral⟩ := Query.reference_numeral (Query.reference_eq_some.mp read).1
      have word := Text.words_self filled fun c inside =>
        (Query.numeral_solid (numeral c inside)).1
      rw [word]
      simp [filled]
    · exact ih later

end Phrase

namespace Query

variable {known : List Text} {fields : SearchFields} {x y t w name : Text} {b : Char}

def sense (known : List Text) (t : Text) : Sense :=
  let cut := Scope.split known t
  { scopes := cut.scopes
    phrases := (Phrase.phrases cut.leftover).map Text.words
    loose := Text.words (Phrase.loose cut.leftover) }

section Spacing

variable (names : ∀ n ∈ known, Scope.Plain n)
include names

/-- A text whose scopes and words are those of two texts, the first of which has no quote
open, has the sense of both. -/
theorem sense_parted (paired : Scope.Paired x)
    (scopes : (Scope.split known t).scopes =
      (Scope.split known x).scopes ++ (Scope.split known y).scopes)
    (words : Text.words (Scope.split known t).leftover =
      Text.words (Scope.split known x).leftover ++ Text.words (Scope.split known y).leftover) :
    sense known t = sense known x ++ sense known y := by
  have same : Text.words (Scope.split known t).leftover =
      Text.words ((Scope.split known x).leftover ++ ' ' :: (Scope.split known y).leftover) := by
    rw [words, Text.words_append Text.space_blank]
  obtain ⟨phrases, loose⟩ := Phrase.phrases_of_words same
  -- the scopes take their quotes with them in pairs, so none is open in what they leave
  have closed : Scope.Outside (Scope.split known x).leftover
      (' ' :: (Scope.split known y).leftover) := .inl (Scope.paired_leftover names paired)
  rw [sense, scopes, phrases, loose, Phrase.phrases_append Text.space_blank closed,
    Phrase.words_loose_append Text.space_blank closed, List.map_append]
  rfl

/-- A blank keeps the sense of what stands before it, provided that no quote is open,
and of what stands behind it. -/
theorem sense_append (blank : Text.isBlank b = true) (paired : Scope.Paired x) :
    sense known (x ++ b :: y) = sense known x ++ sense known y :=
  have cut := Scope.split_append names blank (.inl paired)
  sense_parted names paired cut.1 cut.2

omit names in
theorem sense_congr (scopes : (Scope.split known x).scopes = (Scope.split known y).scopes)
    (words : Text.words (Scope.split known x).leftover = Text.words (Scope.split known y).leftover) :
    sense known x = sense known y := by
  obtain ⟨phrases, loose⟩ := Phrase.phrases_of_words words
  rw [sense, sense, scopes, phrases, loose]

theorem sense_trim (t : Text) : sense known (Text.trim t) = sense known t :=
  sense_congr (Scope.split_trim names t).1 (Scope.split_trim names t).2

end Spacing

theorem sense_parts (fields : SearchFields) (t : Text) :
    sense fields.scopable t =
      { scopes := (parts fields t).scopes
        phrases := (Phrase.phrases (parts fields t).leftover).map Text.words
        loose := Text.words (Phrase.loose (parts fields t).leftover) } := by
  rw [parts]
  split
  · rfl
  · rename_i colonless
    have split := Scope.split_colonless (by simpa using colonless) fields.scopable
    obtain ⟨phrases, loose⟩ := Phrase.phrases_of_words (Text.words_collapse t)
    rw [sense, split, phrases, loose]

theorem lettered_sense (fields : SearchFields) (t : Text) :
    (sense fields.scopable t).Lettered ↔
      (Phrase.loose (parts fields t).leftover).any Text.isAlphanumeric = true := by
  have space : Text.isAlphanumeric ' ' = false := Text.isAlphanumeric_of_blank Text.space_blank
  have any := Text.any_joined space (Text.words (Phrase.loose (parts fields t).leftover))
  have whole : Text.joined [' '] (Text.words (Phrase.loose (parts fields t).leftover)) =
      Phrase.loose (parts fields t).leftover := Text.collapse_collapse _
  rw [whole] at any
  rw [any, sense_parts, Sense.Lettered, List.any_eq_true]

theorem mem_group_leaves {leaf : Leaf} :
    leaf ∈ (group fields t).flatMap Clause.leaves ↔
      (∃ scope ∈ (parts fields t).scopes, leaf = .field scope.field scope.value) ∨
      (∃ v ∈ Phrase.phrases (parts fields t).leftover, v ≠ [] ∧ leaf = .phrase v fields.weighted) ∨
      (sense fields.scopable t).Lettered ∧
        leaf = .fuzzy (Phrase.loose (parts fields t).leftover) fields.weighted := by
  rw [group_leaves, List.mem_append, Phrase.mem_leaves, lettered_sense]
  apply or_congr_left
  rw [List.mem_map]
  simp only [eq_comm]

theorem lettered_iff_fuzzy : (sense fields.scopable t).Lettered ↔
    ∃ text weighted, Leaf.fuzzy text weighted ∈ (group fields t).flatMap Clause.leaves := by
  simp only [mem_group_leaves]
  simp

theorem asks_group : group fields t ≠ [] ↔ (sense fields.scopable t).Asks := by
  have some : group fields t ≠ [] ↔ ∃ leaf, leaf ∈ (group fields t).flatMap Clause.leaves := by
    constructor
    · intro filled
      obtain ⟨clause, rest, shape⟩ := List.exists_cons_of_ne_nil filled
      have among : clause ∈ group fields t := by simp [shape]
      obtain ⟨leaf, inside⟩ := List.exists_mem_of_ne_nil _ (group_leaves_ne_nil among)
      exact ⟨leaf, List.mem_flatMap.mpr ⟨clause, among, inside⟩⟩
    · rintro ⟨leaf, member⟩ empty
      rw [empty] at member
      cases member
  have phrases : (∃ ws ∈ (sense fields.scopable t).phrases, ws ≠ []) ↔
      ∃ v ∈ Phrase.phrases (parts fields t).leftover, v ≠ [] := by
    simp only [sense_parts, List.mem_map, exists_exists_and_eq_and]
    exact exists_congr fun v => and_congr_right fun member =>
      not_congr (Phrase.words_phrase member)
  have scopes : (sense fields.scopable t).scopes = (parts fields t).scopes := by rw [sense_parts]
  rw [some, Sense.Asks, phrases, scopes]
  simp only [mem_group_leaves, exists_or]
  refine or_congr ?_ (or_congr ?_ (by simp))
  · constructor
    · rintro ⟨_, _, member, _⟩
      exact List.ne_nil_of_mem member
    · intro filled
      obtain ⟨scope, member⟩ := List.exists_mem_of_ne_nil _ filled
      exact ⟨_, scope, member, rfl⟩
  · grind

theorem holds_group {columns : List Text} {card : Card} :
    (∀ leaf ∈ (group fields t).flatMap Clause.leaves, Holds.leaf columns card leaf) ↔
      (sense fields.scopable t).Fits columns card fields.weighted := by
  have scopes : (sense fields.scopable t).scopes = (parts fields t).scopes := by rw [sense_parts]
  have phrases : (sense fields.scopable t).phrases =
      (Phrase.phrases (parts fields t).leftover).map Text.words := by rw [sense_parts]
  have loose : (sense fields.scopable t).loose =
      Text.words (Phrase.loose (parts fields t).leftover) := by rw [sense_parts]
  have collapsed {v : Text} : Holds.leaf columns card (.phrase (Text.collapse v) fields.weighted) ↔
      Holds.leaf columns card (.phrase v fields.weighted) :=
    Holds.phrase_words (Text.words_collapse v)
  simp only [mem_group_leaves]
  constructor
  · intro all
    refine ⟨fun scope member => ?_, fun ws member filled => ?_, fun lettered => ?_⟩
    · exact all _ (.inl ⟨scope, scopes ▸ member, rfl⟩)
    · rw [phrases] at member
      -- a phrase without a word makes no clause, and asks for nothing either
      obtain ⟨v, among, rfl⟩ := List.mem_map.mp member
      have some : v ≠ [] := fun empty => filled ((Phrase.words_phrase among).mpr empty)
      exact collapsed.mpr (all _ (.inr (.inl ⟨v, among, some, rfl⟩)))
    · rw [loose]
      exact Holds.fuzzy_words.mp (all _ (.inr (.inr ⟨lettered, rfl⟩)))
  · rintro ⟨fitScopes, fitPhrases, fitLoose⟩ leaf
      (⟨scope, member, rfl⟩ | ⟨v, among, some, rfl⟩ | ⟨lettered, rfl⟩)
    · exact fitScopes scope (scopes ▸ member)
    · apply collapsed.mp
      apply fitPhrases
      · rw [phrases]
        exact List.mem_map_of_mem among
      · exact fun none => some ((Phrase.words_phrase among).mp none)
    · rw [loose] at fitLoose
      exact Holds.fuzzy_words.mpr (fitLoose lettered)

section Compiled

variable {q rest : Text} {years : Option YearRange} (taken : YearRange.extract q = (years, rest))
include taken

theorem compiles_iff :
    (∃ compiled, compile fields q = some compiled) ↔
      ∃ s ∈ segments rest, (sense fields.scopable s).Asks := by
  have none := @compile_eq_none fields q
  rw [taken] at none
  rw [← Option.isSome_iff_exists, ← Option.ne_none_iff_isSome, ne_eq, none]
  simp only [not_forall, exists_prop, ← asks_group, ne_eq]

theorem years_of_compile {compiled : Compiled}
    (made : compile fields q = some compiled) : compiled.plan.years = years := by
  rw [compile, taken] at made
  obtain ⟨plan, shaped, rfl⟩ := Option.map_eq_some_iff.mp made
  exact (Plan.ofGroups_eq_some shaped).2.2

/-- A plan holds of the cards that fit every segment, have a year in the range and are of
one of the types. -/
theorem plan_iff {compiled : Compiled}
    (made : compile fields q = some compiled) {columns : List Text} {card : Card}
    (types : List Text) :
    Holds.plan columns card compiled.plan types ↔
      (∀ s ∈ segments rest, (sense fields.scopable s).Fits columns card fields.weighted) ∧
      (∀ range ∈ years, ∃ year ∈ card.year, range.first ≤ year ∧ year ≤ range.last) ∧
      (types = [] ∨ card.type ∈ types) := by
  have groups : (∀ g ∈ compiled.plan.groups, ∀ c ∈ g, Holds.clause columns card c) ↔
      ∀ s ∈ segments rest, (sense fields.scopable s).Fits columns card fields.weighted := by
    have same := (compile_groups made).1
    rw [taken] at same
    simp only [same, ← holds_group, Holds.clause_iff, List.mem_filter, List.mem_map,
      List.mem_flatMap]
    constructor
    · rintro all s among leaf ⟨c, inside, member⟩
      have filled : (!(group fields s).isEmpty) = true := by
        cases shape : group fields s with
        | nil => simp [shape] at inside
        | cons => rfl
      exact all _ ⟨⟨s, among, rfl⟩, filled⟩ c inside leaf member
    · rintro all g ⟨⟨s, among, rfl⟩, _⟩ c inside leaf member
      exact all s among leaf ⟨c, inside, member⟩
  rw [Holds.plan, groups, years_of_compile taken made]

end Compiled

section Items

theorem sense_scope (names : ∀ n ∈ known, Nameable n) (listed : name ∈ known)
    (other : name ≠ Scope.everyField) (filled : w ≠ [])
    (solid : ∀ c ∈ w, Text.isBlank c = false ∧ Text.isQuote c = false) :
    sense known (name ++ ':' :: w) = ⟨[⟨name, w⟩], [], []⟩ := by
  have pieces := pieces_scope (plain_of_nameable names) (colon_free names)
    (List.mem_cons_of_mem _ listed) (rawValue_word filled solid)
  have split : Scope.split known (name ++ ':' :: w) = ⟨[⟨name, w⟩], []⟩ := by
    simp [Scope.split, pieces, Scan.values, Piece.value?, Scope.scopeOf, Scope.leftoverOf,
      inner_word solid, other, filled, Text.collapse, Text.words, Text.splitOn, Text.joined, Text.space_blank]
  rw [sense, split]
  rfl

theorem sense_quoted (known : List Text) (free : Scope.Unquoted t) :
    sense known (Item.quoted t) = ⟨[], [Text.words t], []⟩ := by
  obtain ⟨phrases, loose⟩ := Phrase.phrases_of_words (Text.words_collapse (Item.quoted t))
  have value : Phrase.phrases (Item.quoted t) = [Text.trim t] := by
    rw [Phrase.phrases, pieces_quoted free]
    rfl
  have rest : Phrase.loose (Item.quoted t) = [] := by
    rw [Phrase.loose, pieces_quoted free]
    rfl
  rw [sense, split_quoted free, phrases, loose, value, rest, List.map_singleton, Text.words_trim]
  rfl

theorem sense_word (known : List Text) (filled : w ≠ [])
    (solid : ∀ c ∈ w, Text.isBlank c = false ∧ Text.isQuote c = false) (colonless : ':' ∉ w)
    (numberless : ∀ a b, Text.isDigit a = true → Text.isDigit b = true → ¬ [a, '-', b] <:+: w) :
    sense known w = ⟨[], [], [w]⟩ := by
  obtain ⟨phrases, loose⟩ := Phrase.phrases_of_words (Text.words_collapse w)
  have pieces := Scan.pieces_of_emits (emits_word (fun c member => (solid c member).2) numberless)
  have none : Phrase.phrases w = [] := by
    rw [Phrase.phrases, pieces, Scan.values_loose]
  have word : Text.words (Phrase.loose w) = [w] := by
    have all : (w.map .loose).flatMap gap = w := by simp [List.flatMap_map, gap]
    rw [Phrase.words_loose, pieces, all, Text.words_self filled fun c member => (solid c member).1]
  rw [sense, Scope.split_colonless colonless, phrases, loose, none, word]
  rfl

end Items

end Query

end CardCatalog
