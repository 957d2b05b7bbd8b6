import CardCatalog.Proofs.Candidates
import CardCatalog.Proofs.Collection.Accepted
import CardCatalog.Proofs.Index.Spelling
import CardCatalog.Proofs.Link
import CardCatalog.Proofs.Search.Following
import CardCatalog.Proofs.Search.Verbatim
import CardCatalog.Proofs.Suggestion

/-!
Suggestions are worth following. A candidate is a term of a card, so it is one solid
word that lower case leaves alone; behind a word that stands by itself it stands by
itself, and the query that its link asks for has it among its keywords.
-/

namespace CardCatalog

namespace Analysis

theorem mem_lowerChar {c d : Char} (letter : Text.isAlphanumeric c = true)
    (member : d ∈ Text.lowerChar c) : Text.isAlphanumeric d = true ∨ d = '\u0307' := by
  by_cases dotted : c = 'İ'
  · subst dotted
    simp only [Text.lowerChar_dotted, List.mem_cons, List.not_mem_nil, or_false] at member
    rcases member with rfl | rfl
    · exact .inl (by decide +kernel)
    · exact .inr rfl
  · rw [Text.lowerChar_eq dotted, List.mem_singleton] at member
    rw [member, Text.isAlphanumeric_small]
    exact .inl letter

theorem lowerChar_lettered {c : Char} (letter : Text.isAlphanumeric c = true) :
    ∃ d ∈ Text.lowerChar c, Text.isAlphanumeric d = true := by
  by_cases dotted : c = 'İ'
  · subst dotted
    exact ⟨'i', by simp [Text.lowerChar_dotted], by decide +kernel⟩
  · rw [Text.lowerChar_eq dotted]
    exact ⟨_, List.mem_singleton_self _, (Text.isAlphanumeric_small c).trans letter⟩

end Analysis

namespace Query

theorem letter_signs {c : Char} (sign : Text.isAlphanumeric c = true ∨ c = '\u0307') :
    Text.isBlank c = false ∧ Text.isQuote c = false ∧ c ≠ ':' ∧ isAnd c = false ∧ c ≠ '-' := by
  rcases sign with letter | rfl
  · have other : ∀ d, Text.isAlphanumeric d = false → c ≠ d := by
      rintro d outside rfl
      rw [letter] at outside
      cases outside
    refine ⟨Text.solid_of_alphanumeric letter, ?_, other ':' (by decide +kernel), ?_,
      other '-' (by decide +kernel)⟩
    · simpa [Text.isQuote] using other '"' (by decide +kernel)
    · simpa [isAnd] using other '&' (by decide +kernel)
  · decide +kernel

-- Terms are words that nothing in a query takes apart.
theorem keyable_term {t k : Text} (term : k ∈ Analysis.terms t) : Keyable k := by
  obtain ⟨run, listed, _, rfl⟩ := Analysis.mem_terms.mp term
  obtain ⟨filled, inside⟩ := Analysis.mem_runs listed
  have signs : ∀ d ∈ Analysis.term run, Text.isBlank d = false ∧ Text.isQuote d = false ∧ d ≠ ':' ∧
      isAnd d = false ∧ d ≠ '-' := by
    intro d member
    obtain ⟨c, among, lowered⟩ := List.mem_flatMap.mp member
    exact letter_signs (Analysis.mem_lowerChar (inside c among).2 lowered)
  obtain ⟨c, among⟩ := List.exists_mem_of_ne_nil run filled
  obtain ⟨d, lowered, letter⟩ := Analysis.lowerChar_lettered (inside c among).2
  have member : d ∈ Analysis.term run := List.mem_flatMap.mpr ⟨c, among, lowered⟩
  exact {
    solid := ⟨List.ne_nil_of_mem member, fun e listed =>
      ⟨(signs e listed).1, (signs e listed).2.1, (signs e listed).2.2.1⟩⟩
    single := fun e listed => (signs e listed).2.2.2.1
    dashless := fun dash => (signs '-' dash).2.2.2.2 rfl
    lettered := ⟨d, member, letter⟩ }

theorem settled_term {t k : Text} (term : k ∈ Analysis.terms t) : ∀ c ∈ k, Text.Settled c := by
  obtain ⟨run, _, _, rfl⟩ := Analysis.mem_terms.mp term
  intro d member
  obtain ⟨c, _, lowered⟩ := List.mem_flatMap.mp member
  exact Text.settled_of_mem_lowerChar lowered

theorem isEdge_small (c : Char) : isEdge (Text.small c) = isEdge c := by
  have single : isAnd (Text.small c) = isAnd c := by
    have same : Text.small c = '&' ↔ c = '&' := Text.small_eq_iff (by decide) c
    simp [isAnd, same]
  rw [isEdge, isEdge, Text.isBlank_small, single]

theorem closes_lower {r : Text} (closes : Text.Closes isEdge r) (u : Text) :
    Text.Closes isEdge (Text.lowerAfter u r) := by
  induction closes generalizing u with
  | done => exact .done
  | @separator c r ends =>
    have plain : c ≠ 'Σ' ∧ c ≠ 'İ' := by
      constructor <;> rintro rfl <;> exact absurd ends (by decide +kernel)
    rw [Text.lowerAfter, if_neg plain.1, Text.lowerChar_eq plain.2]
    exact .separator ((isEdge_small c).trans ends)
  | quote _ ih =>
    have quote : Text.lowerChar '"' = ['"'] := by decide +kernel
    rw [Text.lowerAfter, if_neg (by decide), quote]
    exact .quote (ih _)

theorem keyword_of_term {fields : SearchFields} (names : ∀ n ∈ fields.scopable, Scope.Plain n)
    {t k : Text} (term : k ∈ Analysis.terms t) {back : Text} (closes : Text.Closes isEdge back)
    (front : Text) :
    ∃ compiled, compile fields (Text.lower (front ++ ' ' :: (k ++ back))) = some compiled ∧
      k ∈ compiled.keywords.words := by
  have keyable := keyable_term term
  have blank : Text.Settled ' ' := ⟨by decide, by decide +kernel⟩
  have settled : ∀ c ∈ ' ' :: k, Text.Settled c := by simpa [blank] using settled_term term
  obtain ⟨z, whole⟩ := Text.lowerAfter_append [] front ((' ' :: k) ++ back)
  replace whole := whole.trans (congrArg (z ++ ·) (Text.lowerAfter_settled settled _ back))
  have solid : ∀ c ∈ k, isEdge c = false := by
    intro c member
    rw [isEdge, (keyable.solid.2 c member).1, keyable.single c member, Bool.or_false]
  have left : ∀ c ∈ (z ++ [' ']).getLast?, isEdge c = true := by
    simp [isEdge, Text.space_blank]
  obtain ⟨quotes, all, word⟩ := Text.mem_parted_of_closes keyable.solid.1 solid (by decide +kernel)
    left (closes_lower closes _)
  rw [List.append_assoc, List.singleton_append, ← List.cons_append] at word
  rw [← whole] at word
  exact keyword_of_standing names keyable all word

end Query

namespace Search

variable {config : Config} {catalog : Catalog} {params : SearchParams}

/-- Every suggestion is for a keyword, and its link can be read. The candidate is no
keyword yet, unless it is a number. Where the word it is for stands by itself in the
query, the link asks for another query, and the candidate is a keyword of that one. -/
theorem suggestion_adds_keyword {shown : ResultPage}
    (ran : run config catalog params = .ok (.results shown)) {selection : List DocumentType}
    (selected : config.collection.select params.types = .ok selection)
    (names : ∀ n ∈ (Selection.searchFields selection).scopable, Scope.Plain n)
    {candidate url : Text} (suggested : (candidate, url) ∈ shown.suggestions.entries) :
    ∃ word ∈ shown.keywords.words, ∃ pairs q, Link.parameters? url = some pairs ∧
      SearchParams.values "q" pairs = [q] ∧
      (candidate.all Text.isDigit = false → candidate ∉ shown.keywords.words) ∧
      (Correction.Stands word params.query → q ≠ params.query ∧
        ∃ compiled,
          Query.compile (Selection.searchFields selection) (Text.lower q) = some compiled ∧
          candidate ∈ compiled.keywords.words) := by
  obtain ⟨chosen, compiled, found, answered, rfl⟩ := answered_of_run ran
  cases answered.selected.symm.trans selected
  have listed : (candidate, url) ∈
      (suggestions config catalog compiled.keywords (link selection params)).entries := by
    by_cases first : max params.page 1 = 1
    · simpa [page, first] using suggested
    · simp [page, first, Dict.empty] at suggested
  obtain ⟨word, offered, entry, keyword, among, rfl⟩ := Suggestion.mem_links listed
  obtain ⟨option, fresh⟩ := Suggestion.mem_collect entry among
  obtain ⟨_, _, _, _, _, _, _, text, _, term⟩ := Catalog.mem_spellings option
  refine ⟨word, keyword, _, Correction.addBehind word candidate params.query,
    Link.parameters?_queryString _, ?_, ?_, ?_⟩
  · simp [SearchParams.values_pairs, link]
  · intro other keyword
    exact fresh (Suggestion.mem_seeds.mpr ⟨keyword, other⟩)
  · intro stands
    obtain ⟨front, back, same, closes⟩ := Correction.addBehind_stands stands candidate
    refine ⟨Correction.addBehind_ne stands candidate, ?_⟩
    rw [same]
    exact Query.keyword_of_term names term closes front

-- A card with a name and a number, either of them asked for with a slip.
def clerks : Catalog :=
  Session.after (.create ⟨[ledger]⟩) [note "1" "bakker 1513".toList, .commit]

def corrected : Config := ⟨1, 5, ["naam".toList], ⟨[ledger]⟩⟩

theorem corrected_accepted : corrected.Accepted := ⟨⟨1, 5, ["naam".toList], [ledger]⟩, by rfl⟩

def freeText (q : Text) : Compiled :=
  ⟨⟨[[.one (.fuzzy q (Selection.weightedFields [ledger]))]], none⟩, .ofList (Text.words q)⟩

def typing (q : String) : SearchParams := ⟨q.toList, [], none, 1⟩

/-- A number that is a keyword is suggested for another keyword all the same. -/
theorem number_suggested_again :
    corrected.Accepted ∧ clerks.Reachable ∧ ∃ shown url,
      run corrected clerks (typing "1513 151x") = .ok (.results shown) ∧
      ("1513".toList, url) ∈ shown.suggestions.entries ∧ "1513".toList ∈ shown.keywords.words := by
  have known : clerks.unknownColumn (freeText "1513 151x".toList).plan = none := by decide +kernel
  have answered : Answered corrected clerks (typing "1513 151x") [ledger]
      (freeText "1513 151x".toList) _ :=
    ⟨rfl, by rfl, Catalog.retrieve_known known⟩
  have listed : ("1513".toList, "?q=1513%20151x%201513&index=kasboek".toList) ∈
      (suggestions corrected clerks (freeText "1513 151x".toList).keywords
        (link [ledger] (typing "1513 151x"))).entries := by
    decide +kernel
  exact ⟨corrected_accepted, ledger_reachable _, _, _, run_of_answered answered, listed,
    by decide +kernel⟩

theorem suggestion_adds_keyword_clerk :
    ∃ shown url pairs q compiled, run corrected clerks (typing "bakkr") = .ok (.results shown) ∧
      ("bakker".toList, url) ∈ shown.suggestions.entries ∧
      "bakker".toList ∉ shown.keywords.words ∧ Link.parameters? url = some pairs ∧
      SearchParams.values "q" pairs = [q] ∧ q ≠ "bakkr".toList ∧
      Query.compile (Selection.searchFields [ledger]) (Text.lower q) = some compiled ∧
      "bakker".toList ∈ compiled.keywords.words := by
  have known : clerks.unknownColumn (freeText "bakkr".toList).plan = none := by decide +kernel
  have answered : Answered corrected clerks (typing "bakkr") [ledger] (freeText "bakkr".toList) _ :=
    ⟨rfl, by rfl, Catalog.retrieve_known known⟩
  have ran := run_of_answered answered
  have scopable : (Selection.searchFields [ledger]).scopable = ["naam".toList] := by decide +kernel
  have names : ∀ n ∈ (Selection.searchFields [ledger]).scopable, Scope.Plain n := by
    intro n listed
    rw [scopable, List.mem_singleton] at listed
    rw [listed]
    exact ⟨by decide, Text.forall_of_all (by decide +kernel)⟩
  have suggested : ("bakker".toList, "?q=bakkr%20bakker&index=kasboek".toList) ∈
      (suggestions corrected clerks (freeText "bakkr".toList).keywords
        (link [ledger] (typing "bakkr"))).entries := by
    decide +kernel
  obtain ⟨word, keyword, pairs, q, read, asked, fresh, useful⟩ :=
    suggestion_adds_keyword ran rfl names suggested
  have keywords : (freeText "bakkr".toList).keywords.words = ["bakkr".toList] := by decide +kernel
  replace keyword : word ∈ (freeText "bakkr".toList).keywords.words := keyword
  rw [keywords, List.mem_singleton] at keyword
  subst keyword
  have stands : Correction.Stands "bakkr".toList (typing "bakkr").query :=
    ⟨[], "bakkr".toList, [], rfl, ⟨by decide +kernel, by decide +kernel, by decide +kernel⟩, rfl,
      by simp, .done⟩
  obtain ⟨other, compiled, made, added⟩ := useful stands
  exact ⟨_, _, pairs, q, compiled, ran, suggested, fresh (by decide), read, asked, other, made,
    added⟩

end Search

end CardCatalog
