import CardCatalog.Proofs.Text.Keywords
import CardCatalog.Query.Compile

/-!
Queries as they are meant. A query is a list of segments and a segment a list of
items; an item has one way to be written, and asks for one thing. Which texts an
item may hold is what keeps it from being read as another one.
-/

namespace CardCatalog

namespace Query

inductive Item where
  | scope (name value : Text)
  | phrase (text : Text)
  | number (text : Text)
  | word (text : Text)
  | years (first last : Text)

namespace Item

def quoted (t : Text) : Text := '"' :: t ++ ['"']

def render : Item → Text
  | scope name value => name ++ ':' :: quoted value
  | phrase text => quoted text
  | number text => text
  | word text => text
  | years first last => first ++ '-' :: last

def scope? : Item → Option FieldScope
  | scope name value => some ⟨name, value⟩
  | _ => none

def phrase? : Item → Option Text
  | phrase text => some text
  | number text => some text
  | _ => none

def word? : Item → Option Text
  | word text => some text
  | _ => none

def years? : Item → Option YearRange
  | years first last => some ⟨Text.number first, Text.number last⟩
  | _ => none

def keywords : Item → List Text
  | scope _ value => Text.words value
  | phrase text => Text.words text
  | number text => Text.words text
  | word text => Text.words text
  | years _ _ => []

end Item

def renderSegment (items : List Item) : Text := Text.joined [' '] (items.map Item.render)

def render (segments : List (List Item)) : Text :=
  Text.joined [' ', '&', ' '] (segments.map renderSegment)

/-- What is left of a segment when its years are taken out. -/
def yearless (items : List Item) : List Item := items.filter (·.years?.isNone)

def scopeless (items : List Item) : List Item := items.filter (·.scope?.isNone)

def yearsOf (segments : List (List Item)) : List YearRange :=
  segments.flatMap (·.filterMap Item.years?)

/-- One fuzzy leaf for all words, unless they are punctuation only. -/
def fuzzyLeaf (weighted : List WeightedField) (ws : List Text) : List Leaf :=
  if ws.any (·.any Text.isAlphanumeric) then [.fuzzy (Text.joined [' '] ws) weighted] else []

def leavesOf (weighted : List WeightedField) (items : List Item) : List Leaf :=
  (items.filterMap Item.phrase?).map (.phrase · weighted) ++
    fuzzyLeaf weighted (items.filterMap Item.word?)

def groupOf (weighted : List WeightedField) (items : List Item) : Group :=
  (items.filterMap Item.scope?).map (fun scope => .one (.field scope.field scope.value)) ++
    (Clause.ofLeaves (leavesOf weighted items)).toList

/-- A name that can be scoped: nothing in it ends it before its colon. -/
def Nameable (name : Text) : Prop :=
  name ≠ [] ∧
    ∀ c ∈ name, Text.isBlank c = false ∧ Text.isQuote c = false ∧ c ≠ ':' ∧ isAnd c = false

/-- What can stand between quotes. -/
structure Quotable (t : Text) : Prop where
  spaced : Text.Spaced t
  clean : ∀ c ∈ t, Text.isQuote c = false ∧ isAnd c = false

def Digits (t : Text) : Prop := t ≠ [] ∧ ∀ c ∈ t, Text.isDigit c = true

inductive Reference : Text → Prop where
  | two {a b : Text} (first : Digits a) (second : Digits b) : Reference (a ++ '-' :: b)
  | three {a b c : Text} (first : Digits a) (second : Digits b) (third : Digits c) :
      Reference (a ++ '-' :: b ++ '-' :: c)

def FourDigits (t : Text) : Prop := t.length = 4 ∧ ∀ c ∈ t, Text.isDigit c = true

def HasYears (t : Text) : Prop :=
  ∃ first last, FourDigits first ∧ FourDigits last ∧ first ++ '-' :: last <:+: t

/-- A word that is read as nothing else. -/
structure Bare (known : List Text) (w : Text) : Prop where
  filled : w ≠ []
  clean : ∀ c ∈ w, Text.isBlank c = false ∧ Text.isQuote c = false ∧ isAnd c = false
  numberless : ∀ a b, Text.isDigit a = true → Text.isDigit b = true → ¬ [a, '-', b] <:+: w
  nameless : ∀ n ∈ Scope.everyField :: known, ¬ n ++ [':'] <+: w

inductive Item.WellFormed (known : List Text) : Item → Prop where
  | scope {name value : Text} (listed : name ∈ known) (other : name ≠ Scope.everyField)
      (quotable : Quotable value) (plainName : ¬ HasYears name) (plainValue : ¬ HasYears value) :
      WellFormed known (.scope name value)
  | phrase {text : Text} (quotable : Quotable text) (plain : ¬ HasYears text) :
      WellFormed known (.phrase text)
  | number {text : Text} (reference : Reference text) (plain : ¬ HasYears text) :
      WellFormed known (.number text)
  | word {text : Text} (bare : Bare known text) (plain : ¬ HasYears text) :
      WellFormed known (.word text)
  | years {first last : Text} (four : FourDigits first) (four' : FourDigits last) :
      WellFormed known (.years first last)

-- What numbers are made of parts no words, opens no quotation and starts no scope.
theorem numeral_solid {c : Char} (numeral : Text.isDigit c = true ∨ c = '-') :
    Text.isBlank c = false ∧ Text.isQuote c = false ∧ c ≠ ':' ∧ isAnd c = false := by
  rcases numeral with digit | rfl
  · have range : 48 ≤ c.toNat ∧ c.toNat ≤ 57 := by
      simpa [Text.isDigit, Char.le_def, UInt32.le_iff_toNat_le] using digit
    have other {d : Char} (outside : Text.isDigit d = false) : c ≠ d := by
      rintro rfl
      rw [digit] at outside
      cases outside
    refine ⟨?_, ?_, other (by decide), ?_⟩
    · simp [Text.isBlank, Alphabet.blank, Ranges.has, Ranges.covers]
      omega
    · simpa [Text.isQuote] using other (by decide)
    · simpa [isAnd] using other (by decide)
  · decide +kernel

def Numeral (t : Text) : Prop := ∀ c ∈ t, Text.isDigit c = true ∨ c = '-'

theorem numeral_dash {a b : Text} (first : Numeral a) (second : Numeral b) :
    Numeral (a ++ '-' :: b) := by
  intro c member
  rcases List.mem_append.mp member with early | late
  · exact first c early
  · rcases List.mem_cons.mp late with dash | inside
    · exact .inr dash
    · exact second c inside

theorem digits_numeral {t : Text} (digits : ∀ c ∈ t, Text.isDigit c = true) : Numeral t :=
  fun c member => .inl (digits c member)

theorem space_not_numeral {t : Text} (numeral : Numeral t) : ' ' ∉ t := by
  intro member
  have blank := (numeral_solid (numeral ' ' member)).1
  rw [Text.space_blank] at blank
  cases blank

theorem reference_numeral {t : Text} (reference : Reference t) : t ≠ [] ∧ Numeral t := by
  cases reference with
  | two first second =>
    constructor
    · simp
    · exact numeral_dash (digits_numeral first.2) (digits_numeral second.2)
  | three first second third =>
    constructor
    · simp
    · apply numeral_dash _ (digits_numeral third.2)
      exact numeral_dash (digits_numeral first.2) (digits_numeral second.2)

theorem years_numeral {first last : Text} (four : FourDigits first) (other : FourDigits last) :
    Numeral (first ++ '-' :: last) :=
  numeral_dash (digits_numeral four.2) (digits_numeral other.2)

theorem quoted_spaced {t : Text} (spaced : Text.Spaced t) : Text.Spaced (Item.quoted t) := by
  obtain ⟨_, _, _, _, opened⟩ := Text.words_before spaced Text.quote_solid
  obtain ⟨_, _, _, _, closed⟩ := Text.words_after opened Text.quote_solid
  exact closed

section Render

variable {known : List Text} {i : Item}

theorem name_solid {name : Text} (nameable : Nameable name) :
    ∀ c ∈ name ++ [':'], Text.isBlank c = false := by
  intro c member
  rcases List.mem_append.mp member with inside | colon
  · exact (nameable.2 c inside).1
  · rw [List.mem_singleton.mp colon]
    decide +kernel

theorem render_spaced (names : ∀ n ∈ known, Nameable n) (formed : i.WellFormed known) :
    Text.Spaced i.render := by
  cases formed with
  | @scope name value listed _ quotable _ _ =>
    have solid := name_solid (names name listed)
    obtain ⟨_, _, _, _, spaced⟩ := Text.words_before (quoted_spaced quotable.spaced) solid
    simpa [Item.render] using spaced
  | phrase quotable _ => exact quoted_spaced quotable.spaced
  | number reference _ =>
    obtain ⟨filled, numeral⟩ := reference_numeral reference
    exact Text.spaced_word filled fun c member => (numeral_solid (numeral c member)).1
  | word bare _ => exact Text.spaced_word bare.filled fun c member => (bare.clean c member).1
  | years four other =>
    have numeral := years_numeral four other
    apply Text.spaced_word
    · simp [Item.render]
    · exact fun c member => (numeral_solid (numeral c member)).1

theorem quoted_and_free {t : Text} (quotable : Quotable t) :
    ∀ c ∈ Item.quoted t, isAnd c = false := by
  intro c member
  rcases List.mem_append.mp member with opened | closing
  · rcases List.mem_cons.mp opened with rfl | inside
    · decide
    · exact (quotable.clean c inside).2
  · rw [List.mem_singleton.mp closing]
    decide

theorem render_and_free (names : ∀ n ∈ known, Nameable n) (formed : i.WellFormed known) :
    ∀ c ∈ i.render, isAnd c = false := by
  intro c member
  cases formed with
  | @scope name value listed _ quotable _ _ =>
    rcases List.mem_append.mp member with inside | behind
    · exact ((names name listed).2 c inside).2.2.2
    · rcases List.mem_cons.mp behind with rfl | value
      · decide
      · exact quoted_and_free quotable c value
  | phrase quotable _ => exact quoted_and_free quotable c member
  | number reference _ => exact (numeral_solid ((reference_numeral reference).2 c member)).2.2.2
  | word bare _ => exact (bare.clean c member).2.2
  | years four other => exact (numeral_solid (years_numeral four other c member)).2.2.2

theorem segment_single {items : List Item} (names : ∀ n ∈ known, Nameable n)
    (formed : ∀ i ∈ items, i.WellFormed known) :
    Text.collapse (renderSegment items) = renderSegment items := by
  apply Text.collapse_joined
  intro t member
  obtain ⟨i, inside, rfl⟩ := List.mem_map.mp member
  exact render_spaced names (formed i inside)

end Render

section Keywords

variable {t : Text}

theorem keywords_unquoted (free : ∀ c ∈ t, Text.isQuote c = false) :
    Text.keywords t = Text.words t := by
  have same : (Text.words t).map (Text.stripped Text.isQuote) = (Text.words t).map id := by
    apply List.map_congr_left
    intro w member
    exact Text.stripped_self fun c inside => free c (Text.mem_of_mem_words member c inside)
  rw [Text.keywords, same, List.map_id, List.filter_eq_self]
  intro w member
  simpa using (Text.mem_words member).1

theorem keywords_quoted (quotable : Quotable t) :
    Text.keywords (Item.quoted t) = Text.words t := by
  rw [Item.quoted, Text.keywords_concat_quote, Text.keywords_cons_quote,
    keywords_unquoted fun c member => (quotable.clean c member).1]

theorem keywords_joined (ts : List Text) :
    Text.keywords (Text.joined [' '] ts) = ts.flatMap Text.keywords := by
  rw [Text.keywords, Text.words_joined_texts, List.map_flatMap, List.filter_flatMap]
  rfl

end Keywords

end Query

end CardCatalog
