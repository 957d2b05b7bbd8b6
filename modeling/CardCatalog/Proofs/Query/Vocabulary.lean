import CardCatalog.Proofs.Query.PhraseSpacing
import CardCatalog.Proofs.Query.Shape
import CardCatalog.Proofs.Query.Standing
import CardCatalog.Proofs.Text.Keywords

/-!
Keywords and the words that are searched for. The keywords are the words of a query as
they are written; what is searched for are the words of the plan's leaves. The two
agree where the phrases of the free text are set apart, but for words of punctuation,
which are in no leaf.
-/

namespace CardCatalog

namespace Text

/-- A blank, an end of the texts or quotes next to these part the one from the other. -/
def Apart (x y : Text) : Prop := Closes isBlank x.reverse ∨ Closes isBlank y

section Apart

variable {x y z quotes : Text}

theorem keywords_quotes (all : ∀ c ∈ quotes, isQuote c = true) (t : Text) :
    keywords (quotes ++ t) = keywords t := by
  induction quotes with
  | nil => rfl
  | cons c rest ih =>
    have tail := ih fun d member => all d (List.mem_cons_of_mem c member)
    rw [Scope.isQuote_iff.mp (all c (by simp)), List.cons_append, keywords_cons_quote, tail]

theorem keywords_of_quotes (all : ∀ c ∈ quotes, isQuote c = true) (t : Text) :
    keywords (t ++ quotes) = keywords t := by
  induction quotes generalizing t with
  | nil => rw [List.append_nil]
  | cons c rest ih =>
    have tail := ih (fun d member => all d (List.mem_cons_of_mem c member)) (t ++ [c])
    rw [List.append_assoc, List.singleton_append] at tail
    rw [tail, Scope.isQuote_iff.mp (all c (by simp)), keywords_concat_quote]

theorem keywords_closed (closes : Closes isBlank y) (x : Text) :
    keywords (x ++ y) = keywords x ++ keywords y := by
  obtain ⟨quotes, rest, rfl, all, head⟩ := closes_split closes
  cases rest with
  | nil =>
    have none := keywords_of_quotes all []
    rw [List.append_nil, keywords_of_quotes all, ← List.nil_append quotes, none]
    exact (List.append_nil _).symm
  | cons b rest =>
    have blank : isBlank b = true := head b rfl
    rw [← List.append_assoc, keywords_append blank, keywords_of_quotes all, keywords_quotes all,
      keywords_cons blank]

theorem keywords_opened (closes : Closes isBlank x.reverse) (y : Text) :
    keywords (x ++ y) = keywords x ++ keywords y := by
  obtain ⟨quotes, rest, split, all, head⟩ := closes_split closes
  have shape : x = rest.reverse ++ quotes.reverse := by
    rw [← List.reverse_append, ← split, List.reverse_reverse]
  have every : ∀ c ∈ quotes.reverse, isQuote c = true := by simpa using all
  cases rest with
  | nil =>
    have none := keywords_of_quotes every []
    rw [List.nil_append] at none
    rw [shape, List.reverse_nil, List.nil_append, keywords_quotes every, none]
    rfl
  | cons b rest =>
    have blank : isBlank b = true := head b rfl
    have cut : x = rest.reverse ++ b :: quotes.reverse := by rw [shape]; simp
    rw [cut, List.append_assoc, List.cons_append, keywords_append blank, keywords_append blank,
      keywords_quotes every]
    have none := keywords_of_quotes every []
    rw [List.nil_append] at none
    rw [none]
    exact congrArg (· ++ _) (List.append_nil _).symm

theorem keywords_apart (apart : Apart x y) : keywords (x ++ y) = keywords x ++ keywords y :=
  apart.elim (fun left => keywords_opened left y) (fun right => keywords_closed right x)

theorem apart_right (apart : Apart (x ++ y) z) : Apart y z := by
  apply apart.imp_left
  intro closes
  rw [List.reverse_append] at closes
  have ends := closes_append closes (l := []) fun _ => .done
  rwa [List.append_nil] at ends

end Apart

end Text

namespace Phrase

open Text (Apart)

/-- Every phrase, with what was read before it, stands apart from its neighbours. -/
inductive SetApart : Text → List (Piece Text) → Prop where
  | done (u : Text) : SetApart u []
  | loose {u : Text} {c : Char} {ps : List (Piece Text)} (rest : SetApart (u ++ [c]) ps) :
      SetApart u (.loose c :: ps)
  | token {u v raw : Text} {ps : List (Piece Text)}
      (front : Apart u (raw ++ ps.flatMap Piece.raw)) (back : Apart (u ++ raw) (ps.flatMap Piece.raw))
      (rest : SetApart (u ++ raw) ps) : SetApart u (.token v raw :: ps)

/-- The text with a blank on either side of every phrase. -/
def spread : Piece Text → Text
  | .loose c => [c]
  | .token _ raw => ' ' :: raw ++ [' ']

section Spread

variable {u t k : Text} {ps : List (Piece Text)}

theorem setApart_drop (x : Text) (apart : SetApart (x ++ u) ps) : SetApart u ps := by
  generalize shape : x ++ u = w at apart
  induction apart generalizing u with
  | done w => exact .done u
  | loose rest ih =>
    subst shape
    exact .loose (ih (List.append_assoc _ _ _).symm)
  | token front back rest ih =>
    subst shape
    rw [List.append_assoc] at back
    exact .token (Text.apart_right front) (Text.apart_right back) (ih (List.append_assoc _ _ _).symm)

theorem keywords_token (u raw t : Text) :
    Text.keywords (u ++ (' ' :: raw ++ [' '] ++ t)) =
      Text.keywords u ++ Text.keywords raw ++ Text.keywords t := by
  have shape : u ++ (' ' :: raw ++ [' '] ++ t) = u ++ ' ' :: (raw ++ ' ' :: t) := by simp
  rw [shape, Text.keywords_append Text.space_blank, Text.keywords_append Text.space_blank,
    List.append_assoc]

theorem keywords_spread (apart : SetApart u ps) :
    Text.keywords (u ++ ps.flatMap spread) = Text.keywords (u ++ ps.flatMap Piece.raw) := by
  induction ps generalizing u with
  | nil => rfl
  | cons piece ps ih =>
    rw [List.flatMap_cons, List.flatMap_cons]
    cases apart with
    | @loose _ c _ rest =>
      have tail := ih rest
      rwa [List.append_assoc, List.append_assoc] at tail
    | @token _ v raw _ front back rest =>
      have alone : SetApart [] ps := setApart_drop (u ++ raw) (by rwa [List.append_nil])
      have tail := ih alone
      rw [List.nil_append, List.nil_append] at tail
      rw [spread, Piece.raw, keywords_token, tail, Text.keywords_apart front,
        Text.keywords_apart (Text.apart_right back), List.append_assoc]

theorem mem_spread_token {v raw : Text} (same : Text.keywords raw = Text.keywords v)
    (rest : k ∈ Text.keywords (ps.flatMap spread) ↔
      (∃ w ∈ Scan.values ps, k ∈ Text.keywords w) ∨ k ∈ Text.keywords (ps.flatMap Query.gap))
    (u : Text) :
    k ∈ Text.keywords (u ++ (Piece.token v raw :: ps).flatMap spread) ↔
      (∃ w ∈ Scan.values (.token v raw :: ps), k ∈ Text.keywords w) ∨
        k ∈ Text.keywords (u ++ (Piece.token v raw :: ps).flatMap Query.gap) := by
  have values : Scan.values (.token v raw :: ps) = v :: Scan.values ps := rfl
  rw [List.flatMap_cons, List.flatMap_cons, spread, Query.gap, keywords_token,
    List.singleton_append, Text.keywords_append Text.space_blank, values, List.exists_mem_cons_iff]
  simp only [List.mem_append, same, rest]
  grind

theorem mem_spread (reads : Reads t ps) (u : Text) :
    k ∈ Text.keywords (u ++ ps.flatMap spread) ↔
      (∃ v ∈ Scan.values ps, k ∈ Text.keywords v) ∨
        k ∈ Text.keywords (u ++ ps.flatMap Query.gap) := by
  induction reads generalizing u with
  | done => simp [Scan.values]
  | @loose r c ps _ _ _ ih =>
    have tail := ih (u ++ [c])
    rwa [List.append_assoc, List.append_assoc] at tail
  | @quotation inside r ps free _ ih =>
    have same : Text.keywords ('"' :: inside ++ ['"']) = Text.keywords (Text.trim inside) := by
      rw [Text.keywords_concat_quote, Text.keywords_cons_quote, Text.keywords, Text.keywords,
        Text.words_trim]
    exact mem_spread_token same (ih []) u
  | @number n r ps _ _ ih => exact mem_spread_token rfl (ih []) u

theorem mem_keywords_spread (t : Text) :
    k ∈ Text.keywords ((Scan.pieces find t).flatMap spread) ↔
      (∃ v ∈ phrases t, k ∈ Text.keywords v) ∨ k ∈ Text.keywords (loose t) := by
  have all := mem_spread (k := k) (reads_pieces t) []
  rw [List.nil_append, List.nil_append] at all
  have same : Text.keywords (loose t) =
      Text.keywords ((Scan.pieces find t).flatMap Query.gap) := by
    rw [Text.keywords, words_loose, ← Text.keywords]
  rw [same]
  exact all

/-- The words of the leaves are those of the phrases, and those beside them if there is
a letter or a number among these. -/
theorem mem_leaves_words (fields : List WeightedField) (t : Text) :
    (∃ leaf ∈ leaves fields t, k ∈ Text.keywords leaf.text) ↔
      (∃ v ∈ phrases t, k ∈ Text.keywords v) ∨
        (loose t).any Text.isAlphanumeric = true ∧ k ∈ Text.keywords (loose t) := by
  have empty : k ∉ Text.keywords [] := by simp [Text.keywords, Text.words, Text.splitOn]
  constructor
  · rintro ⟨leaf, member, word⟩
    rcases mem_leaves.mp member with ⟨v, listed, _, rfl⟩ | ⟨lettered, rfl⟩
    · exact .inl ⟨v, listed, word⟩
    · exact .inr ⟨lettered, word⟩
  · rintro (⟨v, listed, word⟩ | ⟨lettered, word⟩)
    · have filled : v ≠ [] := by
        rintro rfl
        exact empty word
      exact ⟨.phrase v fields, mem_leaves.mpr (.inl ⟨v, listed, filled, rfl⟩), word⟩
    · exact ⟨.fuzzy (loose t) fields, mem_leaves.mpr (.inr ⟨lettered, rfl⟩), word⟩

end Spread

end Phrase

namespace Query

variable {fields : SearchFields} {q segment k : Text} {compiled : Compiled}

def free (fields : SearchFields) (segment : Text) : Text := (parts fields segment).leftover

def Valued (fields : SearchFields) (segment k : Text) : Prop :=
  ∃ scope ∈ (parts fields segment).scopes, k ∈ Text.keywords scope.value

/-- Words beside the phrases that are no clause, for they are punctuation only. -/
def Dropped (fields : SearchFields) (segment k : Text) : Prop :=
  (Phrase.loose (free fields segment)).any Text.isAlphanumeric = false ∧
    k ∈ Text.keywords (Phrase.loose (free fields segment))

def Used (plan : Plan) (k : Text) : Prop := ∃ leaf ∈ plan.leaves, k ∈ Text.keywords leaf.text

instance (plan : Plan) (k : Text) : Decidable (Used plan k) :=
  inferInstanceAs (Decidable (∃ leaf ∈ plan.leaves, k ∈ Text.keywords leaf.text))

theorem mem_group_words (fields : SearchFields) (segment k : Text) :
    (∃ leaf ∈ (group fields segment).flatMap Clause.leaves, k ∈ Text.keywords leaf.text) ∨
        Dropped fields segment k ↔
      Valued fields segment k ∨
        k ∈ Text.keywords ((Scan.pieces Phrase.find (free fields segment)).flatMap Phrase.spread) := by
  have scopes : (∃ leaf ∈ (parts fields segment).scopes.map fun scope =>
      Leaf.field scope.field scope.value, k ∈ Text.keywords leaf.text) ↔ Valued fields segment k := by
    simp [Valued, Leaf.text]
  have texts := Phrase.mem_leaves_words (k := k) fields.weighted (free fields segment)
  rw [Phrase.mem_keywords_spread, group_leaves]
  simp only [List.mem_append, or_and_right, exists_or]
  rw [scopes, ← free, texts, Dropped]
  cases (Phrase.loose (free fields segment)).any Text.isAlphanumeric <;> simp [or_assoc]

theorem mem_keywords_parts :
    k ∈ keywords fields segment ↔
      Valued fields segment k ∨ k ∈ Text.keywords (free fields segment) := by
  simp [keywords, Valued, free]

/-- The keywords are the words of the scopes and of the free text. What the plan asks for
and what is dropped are the same words, but with blanks around every phrase; so where all
phrases stand apart there is no difference. -/
theorem keywords_used (made : compile fields q = some compiled) :
    (∀ k, k ∈ compiled.keywords.words ↔ ∃ segment ∈ segments (YearRange.extract q).2,
        Valued fields segment k ∨ k ∈ Text.keywords (free fields segment)) ∧
      (∀ k, Used compiled.plan k ∨
          (∃ segment ∈ segments (YearRange.extract q).2, Dropped fields segment k) ↔
        ∃ segment ∈ segments (YearRange.extract q).2, Valued fields segment k ∨
          k ∈ Text.keywords
            ((Scan.pieces Phrase.find (free fields segment)).flatMap Phrase.spread)) ∧
      ((∀ segment ∈ segments (YearRange.extract q).2,
          Phrase.SetApart [] (Scan.pieces Phrase.find (free fields segment))) →
        ∀ k, k ∈ compiled.keywords.words ↔ Used compiled.plan k ∨
          ∃ segment ∈ segments (YearRange.extract q).2, Dropped fields segment k) := by
  have written : ∀ k, k ∈ compiled.keywords.words ↔ ∃ segment ∈ segments (YearRange.extract q).2,
      Valued fields segment k ∨ k ∈ Text.keywords (free fields segment) := by
    intro k
    rw [keywords_of_compile made, WordSet.mem_ofList, List.mem_flatMap]
    simp only [mem_keywords_parts]
  -- the words of a group are those of its leaves, but for the loose ones without a letter
  have asked : ∀ k, Used compiled.plan k ∨
        (∃ segment ∈ segments (YearRange.extract q).2, Dropped fields segment k) ↔
      ∃ segment ∈ segments (YearRange.extract q).2, Valued fields segment k ∨
        k ∈ Text.keywords
          ((Scan.pieces Phrase.find (free fields segment)).flatMap Phrase.spread) := by
    intro k
    simp only [← mem_group_words, Used, leaves_of_compile made, List.mem_flatMap]
    grind
  refine ⟨written, asked, fun apart k => ?_⟩
  rw [written, asked]
  apply exists_congr
  intro segment
  apply and_congr_right
  intro listed
  have same := Phrase.keywords_spread (apart segment listed)
  rw [List.nil_append, List.nil_append, Scan.raw_pieces] at same
  rw [same]

def smithText : Text := "naam:jan \"de smit\" - & akte 12-34".toList

theorem keywords_used_smith :
    ∃ compiled, compile ⟨["naam".toList], []⟩ smithText = some compiled ∧
      (∀ segment ∈ segments (YearRange.extract smithText).2,
        Phrase.SetApart [] (Scan.pieces Phrase.find (free ⟨["naam".toList], []⟩ segment))) ∧
      (∀ k, k ∈ compiled.keywords.words ↔ Used compiled.plan k ∨ k = ['-']) ∧
      compiled.keywords.words = ["-", "12-34", "akte", "de", "jan", "smit"].map String.toList := by
  have cut : segments (YearRange.extract smithText).2 =
      ["naam:jan \"de smit\" -".toList, "akte 12-34".toList] := by
    decide +kernel
  have quotation : Scan.pieces Phrase.find
      (free ⟨["naam".toList], []⟩ "naam:jan \"de smit\" -".toList) =
        [.token "de smit".toList "\"de smit\"".toList, .loose ' ', .loose '-'] := rfl
  have number : Scan.pieces Phrase.find (free ⟨["naam".toList], []⟩ "akte 12-34".toList) =
      "akte ".toList.map .loose ++ [.token "12-34".toList "12-34".toList] := rfl
  have apart : ∀ segment ∈ segments (YearRange.extract smithText).2,
      Phrase.SetApart [] (Scan.pieces Phrase.find (free ⟨["naam".toList], []⟩ segment)) := by
    rw [cut]
    intro segment listed
    rcases List.mem_cons.mp listed with rfl | last
    · rw [quotation]
      exact .token (.inl .done) (.inr (.separator Text.space_blank)) (.loose (.loose (.done _)))
    · rw [List.mem_singleton.mp last, number]
      refine .loose (.loose (.loose (.loose (.loose (.token ?_ (.inr .done) (.done _))))))
      exact .inl (.separator Text.space_blank)
  obtain ⟨compiled, made⟩ : ∃ compiled, compile ⟨["naam".toList], []⟩ smithText = some compiled :=
    ⟨_, rfl⟩
  obtain ⟨_, _, same⟩ := keywords_used made
  refine ⟨compiled, made, apart, fun k => ?_, ?_⟩
  · have dash : ∀ k, Dropped ⟨["naam".toList], []⟩ "naam:jan \"de smit\" -".toList k ↔
        k = ['-'] := by
      intro k
      have beside : Phrase.loose
          (free ⟨["naam".toList], []⟩ "naam:jan \"de smit\" -".toList) = ['-'] := rfl
      have mark : Text.isAlphanumeric '-' = false := by decide +kernel
      have word : Text.keywords ['-'] = [['-']] := by decide +kernel
      rw [Dropped, beside, word, List.mem_singleton, List.any_cons, mark]
      exact and_iff_right rfl
    have none : ∀ k, ¬ Dropped ⟨["naam".toList], []⟩ "akte 12-34".toList k := by
      rintro k ⟨unlettered, _⟩
      exact absurd unlettered (by decide +kernel)
    rw [same apart, cut, List.exists_mem_cons_iff, List.exists_mem_cons_iff, dash]
    exact or_congr_right (or_iff_left fun either => either.elim (none k) (by simp))
  · rw [keywords_of_compile made]
    decide +kernel

/-- A word of punctuation is a keyword that no clause has. What is written next to a
quotation without a blank is one keyword with the beginning of it, and the word that is
searched for is none. -/
theorem keyword_not_used :
    (∃ compiled, compile ⟨["naam".toList], []⟩ "\"jan\" -".toList = some compiled ∧
        ['-'] ∈ compiled.keywords.words ∧ ¬ Used compiled.plan ['-']) ∧
      ∃ compiled, compile ⟨["naam".toList], []⟩ "jan\"de smit\"".toList = some compiled ∧
        Used compiled.plan "jan".toList ∧ "jan".toList ∉ compiled.keywords.words ∧
        "jan\"de".toList ∈ compiled.keywords.words ∧ ¬ Used compiled.plan "jan\"de".toList := by
  constructor
  · exact ⟨_, rfl, by decide +kernel, by decide +kernel⟩
  · exact ⟨_, rfl, by decide +kernel, by decide +kernel, by decide +kernel, by decide +kernel⟩

end Query

end CardCatalog
