import CardCatalog.Index.Spelling
import CardCatalog.Proofs.Dict
import CardCatalog.Proofs.Index.Postings

/-!
Where spelling candidates come from. Every candidate for a word is a term of a text
that some card has in one of the fields asked for, whether the card is live or not.
-/

namespace CardCatalog

namespace Inverted

theorem mem_ofTexts {texts : List (Option Text)} {term : Text} {postings : List Posting}
    (member : (term, postings) ∈ (ofTexts texts).postings.entries) :
    ∃ text, some text ∈ texts ∧ term ∈ Analysis.terms text := by
  obtain ⟨listed, among, same⟩ := List.mem_map.mp member
  cases same
  obtain ⟨slot, inside, some⟩ := List.mem_filterMap.mp (WordSet.mem_ofList.mp among)
  obtain ⟨slots, card, within⟩ := List.mem_flatten.mp inside
  obtain ⟨text, given, rfl⟩ := List.mem_map.mp card
  cases text with
  | none => cases within
  | some text =>
    refine ⟨text, given, ?_⟩
    rw [Analysis.terms_eq_slots]
    exact List.mem_filterMap.mpr ⟨slot, within, some⟩

end Inverted

namespace Store

theorem mem_vocabulary {store : Store} {column term : Text} {count : Nat}
    (member : (term, count) ∈ (store.vocabulary column).entries) :
    ∃ s ∈ store.segments, ∃ held ∈ s.held, ∃ text,
      held.card.fields.get? column = some text ∧ term ∈ Analysis.terms text := by
  have listed : ∃ postings, (term, postings) ∈ store.segments.flatMap fun s =>
      ((s.column column).map (·.postings.entries)).getD [] := by
    refine Dict.forall_foldl_insert (P := fun term _ => ∃ postings, (term, postings) ∈ _)
      (fun _ _ entry given => ⟨entry.2, given⟩) .empty (by simp [Dict.empty]) (term, count) member
  obtain ⟨postings, among⟩ := listed
  obtain ⟨s, present, within⟩ := List.mem_flatMap.mp among
  rw [Segment.column_eq] at within
  split at within
  · obtain ⟨text, given, found⟩ := Inverted.mem_ofTexts within
    rw [List.map_map] at given
    obtain ⟨held, there, stored⟩ := List.mem_map.mp given
    exact ⟨s, present, held, there, text, stored, found⟩
  · cases within

end Store

theorem Spelling.candidate?_eq_some {word term : Text} {count : Nat} {c : Candidate} :
    candidate? word (term, count) = some c ↔ word.head? = term.head? ∧
      1 ≤ Edit.distance word term ∧ Edit.distance word term ≤ furthest ∧
      c = ⟨Edit.distance word term, count, term⟩ := by
  simp [candidate?, and_assoc, eq_comm]

theorem Catalog.mem_spellings {catalog : Catalog} {words fields : List Text} {size : Nat}
    {word candidate : Text} (member : (word, candidate) ∈ catalog.spellings words fields size) :
    word ∈ words ∧ ∃ s ∈ catalog.store.segments, ∃ held ∈ s.held, ∃ field ∈ fields, ∃ text,
      held.card.fields.get? field = some text ∧ candidate ∈ Analysis.terms text := by
  obtain ⟨column, visible, pairs⟩ := List.mem_flatMap.mp member
  obtain ⟨asked, long, options⟩ := List.mem_flatMap.mp pairs
  obtain ⟨option, taken, same⟩ := List.mem_map.mp options
  cases same
  have offered := List.mem_mergeSort.mp (List.mem_of_mem_take taken)
  obtain ⟨⟨term, count⟩, entry, made⟩ := List.mem_filterMap.mp offered
  obtain ⟨_, _, _, rfl⟩ := Spelling.candidate?_eq_some.mp made
  obtain ⟨s, present, held, there, text, stored, found⟩ := Store.mem_vocabulary entry
  exact ⟨(List.mem_filter.mp long).1, s, present, held, there, column, (List.mem_filter.mp visible).1,
    text, stored, found⟩

end CardCatalog
