import CardCatalog.Proofs.Query.ScopeBlanks
import CardCatalog.Proofs.Query.Sense

/-!
Queries that are written with other blanks. A collapsed query falls into the segments that
it fell into before, written with single spaces; each of them asks for the same words and
has the same keywords. So whether a query is collapsed makes no difference to what it finds.
-/

namespace CardCatalog

namespace Text

theorem squeeze_trim (t : Text) : squeeze (trim t) = collapse t := by
  obtain ⟨first, last⟩ := stripped_ends isBlank t
  rw [trim, squeeze_ends first last, collapse, collapse, ← trim, words_trim]

section Pieces

variable {p : Char → Bool} {before after t : Text}
  (solid : ∀ c, p c = true → isBlank c = false)
include solid

theorem words_splitOn_padded (starts : ∀ c ∈ before, isBlank c = true)
    (ends : ∀ c ∈ after, isBlank c = true) :
    (splitOn p (before ++ t ++ after)).map words = (splitOn p t).map words := by
  have free {x : Text} (blank : ∀ c ∈ x, isBlank c = true) : ∀ c ∈ x, p c = false := by
    intro c member
    cases marked : p c with
    | false => rfl
    | true =>
      have clear := solid c marked
      rw [blank c member] at clear
      cases clear
  -- what is read of the first piece is a text each, of the same words with whatever behind
  suffices step : ∀ x y, (∀ c ∈ x, p c = false) → (∀ c ∈ y, p c = false) →
      (∀ z, words (x ++ z) = words (y ++ z)) →
      (splitOn p (x ++ (t ++ after))).map words = (splitOn p (y ++ t)).map words by
    have all := step before [] (free starts) (by simp) (words_blanks starts)
    rwa [← List.append_assoc] at all
  induction t with
  | nil =>
    intro x y clear clean same
    have whole : ∀ c ∈ x ++ after, p c = false := by
      intro c member
      exact (List.mem_append.mp member).elim (clear c) (free ends c)
    have padded := @words_padded [] y after (by simp) ends
    rw [List.nil_append, List.append_nil, splitOn_eq_self whole, splitOn_eq_self clean,
      List.map_singleton, List.map_singleton, same, ← List.nil_append y, padded]
    rfl
  | cons c t ih =>
    intro x y clear clean same
    cases separator : p c with
    | true =>
      have later := ih [] [] (by simp) (by simp) (fun z => rfl)
      have words := same []
      rw [List.append_nil, List.append_nil] at words
      rw [List.cons_append, splitOn_append separator, splitOn_append separator,
        splitOn_eq_self clear, splitOn_eq_self clean]
      exact congrArg₂ List.cons words later
    | false =>
      have longer {w : Text} (clear : ∀ d ∈ w, p d = false) : ∀ d ∈ w ++ [c], p d = false := by
        intro d member
        rcases List.mem_append.mp member with inside | here
        · exact clear d inside
        · rwa [List.mem_singleton.mp here]
      have step := ih (x ++ [c]) (y ++ [c]) (longer clear) (longer clean) fun z => by
        simpa using same (c :: z)
      simpa using step

theorem words_splitOn_collapse (t : Text) :
    (splitOn p (collapse t)).map words = (splitOn p t).map words := by
  obtain ⟨before, after, split, starts, ends⟩ := stripped_split isBlank t
  have padded := words_splitOn_padded (t := trim t) solid starts ends
  rw [trim, ← split] at padded
  rw [padded, ← squeeze_trim, splitOn_squeeze solid, List.map_map]
  exact List.map_congr_left fun piece _ => words_squeeze piece

end Pieces

end Text

namespace Holds

theorem field_words {columns : List Text} {card : Card} {name t u : Text}
    (same : Text.words t = Text.words u) :
    leaf columns card (.field name t) ↔ leaf columns card (.field name u) := by
  have terms : Analysis.terms t = Analysis.terms u := by
    rw [Analysis.terms, Analysis.terms, Analysis.runs_of_words same]
  rw [leaf, leaf, terms]

end Holds

namespace Sense

def collapsed (s : Sense) : Sense :=
  { s with scopes := s.scopes.map fun scope => ⟨scope.field, Text.collapse scope.value⟩ }

variable {s : Sense} {columns : List Text} {card : Card} {fields : List WeightedField}

theorem asks_collapsed : s.collapsed.Asks ↔ s.Asks := by
  have scopes : s.collapsed.scopes ≠ [] ↔ s.scopes ≠ [] := not_congr List.map_eq_nil_iff
  rw [Asks, scopes]
  rfl

theorem fits_collapsed : s.collapsed.Fits columns card fields ↔ s.Fits columns card fields := by
  have scope (scope : FieldScope) :
      Holds.leaf columns card (.field scope.field (Text.collapse scope.value)) ↔
        Holds.leaf columns card (.field scope.field scope.value) :=
    Holds.field_words (Text.words_collapse scope.value)
  constructor
  · rintro ⟨scopes, phrases, loose⟩
    refine ⟨fun one member => ?_, phrases, loose⟩
    exact (scope one).mp (scopes _ (List.mem_map_of_mem member))
  · rintro ⟨scopes, phrases, loose⟩
    refine ⟨fun one member => ?_, phrases, loose⟩
    obtain ⟨old, among, rfl⟩ := List.mem_map.mp member
    exact (scope old).mpr (scopes old among)

end Sense

namespace Query

theorem and_solid (c : Char) (sign : isAnd c = true) : Text.isBlank c = false := by
  have same : c = '&' := of_decide_eq_true sign
  rw [same]
  decide +kernel

theorem segments_squeeze (t : Text) : (segments t).map Text.squeeze =
    (((Text.splitOn isAnd t).map Text.words).map (Text.joined [' '])).filter (!·.isEmpty) := by
  have kept (piece : Text) : (Text.trim piece).isEmpty = (Text.collapse piece).isEmpty := by
    rw [Bool.eq_iff_iff, List.isEmpty_iff, List.isEmpty_iff]
    constructor
    · intro empty
      rw [← Text.squeeze_trim, empty]
      rfl
    · intro empty
      apply Text.trim_eq_nil
      rw [← Text.words_collapse, empty]
      rfl
  have squeezed : Text.squeeze ∘ Text.trim = Text.collapse := funext Text.squeeze_trim
  have joined : Text.joined [' '] ∘ Text.words = Text.collapse := rfl
  rw [segments, List.map_map, joined, List.filter_map, List.map_map, squeezed, List.filter_map]
  congr 2
  funext piece
  exact congrArg (!·) (kept piece)

theorem segments_collapse (t : Text) :
    (segments (Text.collapse t)).map Text.squeeze = (segments t).map Text.squeeze := by
  rw [segments_squeeze, segments_squeeze, Text.words_splitOn_collapse and_solid]

section Respacing

variable {known : List Text} {fields : SearchFields}

theorem sense_squeeze (names : ∀ n ∈ known, Scope.Blankless n) (t : Text) :
    (sense known (Text.squeeze t)).collapsed = (sense known t).collapsed := by
  obtain ⟨scopes, leftover⟩ := Scope.split_squeeze names t
  have collapsed (cut : Scoped) : (cut.scopes.map fun scope =>
      FieldScope.mk scope.field (Text.collapse scope.value)) =
        (cut.scopes.map Scope.spelled).map fun s => ⟨s.1, Text.joined [' '] s.2⟩ := by
    rw [List.map_map]
    rfl
  rw [Sense.collapsed, Sense.collapsed, sense, sense, leftover]
  simp only [collapsed, scopes]

theorem senses_collapse (names : ∀ n ∈ known, Scope.Blankless n) (t : Text) :
    ((segments (Text.collapse t)).map fun s => (sense known s).collapsed) =
      (segments t).map fun s => (sense known s).collapsed := by
  have squeezed (ts : List Text) : (ts.map fun s => (sense known s).collapsed) =
      (ts.map Text.squeeze).map fun s => (sense known s).collapsed := by
    rw [List.map_map]
    exact List.map_congr_left fun s _ => (sense_squeeze names s).symm
  rw [squeezed, segments_collapse, ← squeezed]

theorem keywords_split (fields : SearchFields) (t : Text) : keywords fields t =
    (Scope.split fields.scopable t).scopes.flatMap (Text.keywords ·.value) ++
      Text.keywords (Scope.split fields.scopable t).leftover := by
  rw [keywords, parts]
  split
  · rfl
  · rename_i colonless
    rw [Scope.split_colonless (by simpa using colonless),
      Text.keywords_of_words (Text.words_collapse t)]

theorem keywords_squeeze (names : ∀ n ∈ fields.scopable, Scope.Blankless n) (t : Text) :
    keywords fields (Text.squeeze t) = keywords fields t := by
  obtain ⟨scopes, leftover⟩ := Scope.split_squeeze names t
  have spelled (cut : Scoped) : cut.scopes.flatMap (Text.keywords ·.value) =
      (cut.scopes.map Scope.spelled).flatMap fun s =>
        (s.2.map (Text.stripped Text.isQuote)).filter (!·.isEmpty) := by
    rw [List.flatMap_map]
    rfl
  rw [keywords_split, keywords_split, spelled, scopes, leftover, ← spelled]

theorem keywords_collapse (names : ∀ n ∈ fields.scopable, Scope.Blankless n) (t : Text) :
    (segments (Text.collapse t)).flatMap (keywords fields) =
      (segments t).flatMap (keywords fields) := by
  have squeezed (ts : List Text) : ts.flatMap (keywords fields) =
      (ts.map Text.squeeze).flatMap (keywords fields) := by
    rw [List.flatMap_map]
    exact List.flatMap_congr fun s _ => (keywords_squeeze names s).symm
  rw [squeezed, segments_collapse, ← squeezed]

end Respacing

end Query

end CardCatalog
