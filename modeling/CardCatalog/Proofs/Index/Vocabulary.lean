import CardCatalog.Proofs.Index.Meaning
import CardCatalog.Proofs.Index.Spelling
import Mathlib.Algebra.BigOperators.Group.List.Basic
import Mathlib.Algebra.GroupWithZero.Nat

/-!
The vocabulary of a column: the terms in the dictionaries of the segments, each with
the number of cards that have it. Cards that were replaced count as long as their
segment is there.
-/

namespace CardCatalog

theorem Dict.sum_entries {α : Type} (d : Dict α) (key : Text) (f : α → Nat) :
    (d.entries.map fun e => if e.1 = key then f e.2 else 0).sum =
      ((d.get? key).map f).getD 0 := by
  have unique := d.keys_nodup
  rw [get?]
  generalize d.entries = entries at unique
  induction entries with
  | nil => rfl
  | cons e rest ih =>
    obtain ⟨fresh, tail⟩ := List.nodup_cons.mp unique
    rw [List.map_cons, List.sum_cons, ih tail]
    by_cases hit : e.1 = key
    · have absent : rest.find? (·.1 == key) = none := by
        refine List.find?_eq_none.mpr fun other member same => fresh ?_
        exact List.mem_map.mpr ⟨other, member, (eq_of_beq same).trans hit.symm⟩
      simp [hit, absent]
    · simp [hit]

namespace Inverted

theorem length_postingsOf (cards : List (List (Option Text))) (term : Text) :
    (postingsOf cards term).length = (cards.filter (some term ∈ ·)).length := by
  suffices general : ∀ start, ((cards.zipIdx start).filterMap (posting? term)).length =
      (cards.filter (some term ∈ ·)).length by
    exact general 0
  induction cards with
  | nil => simp
  | cons card rest ih =>
    intro start
    have tail := ih (start + 1)
    cases found : positions term card with
    | nil =>
      have absent := positions_eq_nil.mp found
      simpa [posting?, found, absent] using tail
    | cons p more =>
      have there : some term ∈ card := by
        by_contra absent
        simp [positions_eq_nil.mpr absent] at found
      simpa [posting?, found, there] using tail

theorem length_find (cards : List Card) (column term : Text) :
    ((ofTexts (cards.map (·.fields.get? column))).find term).length =
      (cards.filter fun card => decide (Holds.has card column term)).length := by
  rw [find_ofTexts, length_postingsOf, List.map_map, List.filter_map, List.length_map]
  rfl

end Inverted

namespace Store

section Counting

variable (d : Dict Nat) (entry : Text × List Posting) (entries : List (Text × List Posting))
  (term : Text)

theorem get?_addCount : (addCount d entry).get? term =
    if entry.1 = term then some (((d.get? term).getD 0) + entry.2.length) else d.get? term := by
  by_cases same : entry.1 = term
  · rw [addCount, if_pos same, same, Dict.get?_insert_self]
  · rw [addCount, if_neg same, Dict.get?_insert_other _ (Ne.symm same)]

theorem count_foldl : ((entries.foldl addCount d).get? term).getD 0 =
    (d.get? term).getD 0 + (entries.map fun e => if e.1 = term then e.2.length else 0).sum := by
  induction entries generalizing d with
  | nil => rfl
  | cons e rest ih =>
    rw [List.foldl_cons, ih, get?_addCount, List.map_cons, List.sum_cons]
    split <;> simp [Nat.add_assoc]

theorem isSome_foldl : ((entries.foldl addCount d).get? term).isSome = true ↔
    (d.get? term).isSome = true ∨ ∃ e ∈ entries, e.1 = term := by
  induction entries generalizing d with
  | nil => simp
  | cons e rest ih =>
    rw [List.foldl_cons, ih, get?_addCount]
    by_cases same : e.1 = term <;> simp [same]

end Counting

def Lists (store : Store) (column term : Text) : Prop :=
  ∃ s ∈ store.segments, ∃ inverted ∈ s.column column, term ∈ inverted.postings.keys

/-- The cards of all segments, live or not, that have a term in a column. -/
def holders (store : Store) (column term : Text) : List Card :=
  ((store.segments.flatMap (·.held)).map (·.card)).filter fun card =>
    decide (Holds.has card column term)

variable {store : Store} {column term : Text}

theorem isSome_vocabulary :
    ((store.vocabulary column).get? term).isSome = true ↔ store.Lists column term := by
  rw [vocabulary, isSome_foldl, or_iff_right (by simp [Dict.empty, Dict.get?]), Lists]
  constructor
  · rintro ⟨e, among, rfl⟩
    obtain ⟨s, present, within⟩ := List.mem_flatMap.mp among
    cases there : s.column column with
    | none => simp [there] at within
    | some inverted =>
      rw [there] at within
      exact ⟨s, present, inverted, there, List.mem_map.mpr ⟨e, within, rfl⟩⟩
  · rintro ⟨s, present, inverted, there, listed⟩
    obtain ⟨e, within, rfl⟩ := List.mem_map.mp listed
    refine ⟨e, List.mem_flatMap.mpr ⟨s, present, ?_⟩, rfl⟩
    rw [Option.mem_def.mp there]
    exact within

section Covered

variable (covered : ∀ s ∈ store.segments, column ∈ s.columns)
include covered

theorem count_vocabulary :
    ((store.vocabulary column).get? term).getD 0 = (store.holders column term).length := by
  have segment : ∀ s ∈ store.segments,
      ((((s.column column).map (·.postings.entries)).getD []).map fun e =>
        if e.1 = term then e.2.length else 0).sum =
      ((s.held.map (·.card)).filter fun card => decide (Holds.has card column term)).length := by
    intro s present
    rw [s.column_eq, if_pos (covered s present), Option.map_some, Option.getD_some,
      Dict.sum_entries]
    rw [← Inverted.length_find, Inverted.find]
    cases Dict.get? _ term <;> rfl
  rw [vocabulary, count_foldl, holders, List.map_flatMap, List.map_flatMap, List.filter_flatMap,
    List.length_flatMap, List.flatMap_def, List.sum_flatten, List.map_map]
  rw [show (Dict.empty.get? term : Option Nat) = none from rfl, Option.getD_none, Nat.zero_add]
  exact congrArg List.sum (List.map_congr_left segment)

/-- The vocabulary has the listed terms and no others, with the number of their cards. -/
theorem mem_vocabulary_iff {count : Nat} : (term, count) ∈ (store.vocabulary column).entries ↔
    store.Lists column term ∧ count = (store.holders column term).length := by
  rw [← Dict.get?_eq_some, ← isSome_vocabulary, ← count_vocabulary covered]
  cases (store.vocabulary column).get? term <;> simp [eq_comm]

end Covered

end Store

end CardCatalog
