import CardCatalog.Proofs.Index.EditDistance
import CardCatalog.Proofs.Index.Session
import CardCatalog.Proofs.Index.Vocabulary
import Mathlib.Data.List.Permutation

/-!
The spelling candidates of a word are the best ones. All terms of a column that are near
enough to the word stand in one order, in which no two of them rank the same, and the
candidates are its beginning.
-/

namespace CardCatalog

namespace Spelling

/-- What can be a candidate for a word: a term of the column that begins with the same
character and is one or two edits away. -/
structure Eligible (store : Store) (column word term : Text) : Prop where
  listed : store.Lists column term
  first : word.head? = term.head?
  near : 1 ≤ Edit.distance word term ∧ Edit.distance word term ≤ 2

/-- The nearer term comes first, of equally near ones the one that more cards have, and
of those the one that is less in code points. -/
def Before (store : Store) (column word a b : Text) : Prop :=
  Edit.distance word a < Edit.distance word b ∨
    Edit.distance word a = Edit.distance word b ∧
      ((store.holders column b).length < (store.holders column a).length ∨
        (store.holders column a).length = (store.holders column b).length ∧ a < b)

/-- All eligible terms in their order. -/
structure Ranks (store : Store) (column word : Text) (terms : List Text) : Prop where
  each : ∀ term, term ∈ terms ↔ Eligible store column word term
  ordered : terms.Pairwise (Before store column word)

/-- Nothing is offered twice, nothing is left out where there is room for it, and what is
left out comes behind what is offered. -/
structure Offers (store : Store) (column word : Text) (size : Nat) (terms : List Text) :
    Prop where
  once : terms.Nodup
  all : terms.length < size → ∀ term, Eligible store column word term → term ∈ terms
  best : ∀ term, Eligible store column word term → term ∉ terms →
    ∀ offered ∈ terms, Before store column word offered term

theorem comesFirst_iff {a b : Candidate} : comesFirst a b = true ↔
    a.distance < b.distance ∨ a.distance = b.distance ∧
      (b.frequency < a.frequency ∨ a.frequency = b.frequency ∧ ¬ b.term < a.term) := by
  simp [comesFirst, -List.not_lt]

theorem comesFirst_trans {a b c : Candidate} (first : comesFirst a b = true)
    (second : comesFirst b c = true) : comesFirst a c = true := by
  rw [comesFirst_iff] at *
  rcases first with near | ⟨near, often | ⟨often, low⟩⟩
  · left; omega
  · rcases second with later | ⟨later, _ | ⟨_, _⟩⟩
    · left; omega
    · right; omega
    · right; omega
  · rcases second with later | ⟨later, _ | ⟨rare, high⟩⟩
    · left; omega
    · right; omega
    · have between := List.le_trans (List.not_lt.mp low) (List.not_lt.mp high)
      exact .inr ⟨by omega, .inr ⟨by omega, List.not_lt.mpr between⟩⟩

theorem comesFirst_total (a b : Candidate) : (comesFirst a b || comesFirst b a) = true := by
  rw [Bool.or_eq_true, comesFirst_iff, comesFirst_iff]
  rcases Nat.lt_trichotomy a.distance b.distance with near | same | far
  · exact .inl (.inl near)
  · rcases Nat.lt_trichotomy b.frequency a.frequency with often | even | rare
    · exact .inl (.inr ⟨same, .inl often⟩)
    · rcases List.le_total a.term b.term with low | high
      · exact .inl (.inr ⟨same, .inr ⟨even.symm, List.not_lt.mpr low⟩⟩)
      · exact .inr (.inr ⟨same.symm, .inr ⟨even, List.not_lt.mpr high⟩⟩)
    · exact .inr (.inr ⟨same.symm, .inl rare⟩)
  · exact .inr (.inl far)

theorem terms_distinct (vocabulary : Dict Nat) (word : Text) :
    (candidates vocabulary word).Pairwise fun a b => a.term ≠ b.term := by
  have apart : (vocabulary.entries.filterMap (candidate? word)).Pairwise
      fun a b => a.term ≠ b.term := by
    refine List.pairwise_filterMap.mpr (vocabulary.ascending.imp ?_)
    intro first second below a one b two
    obtain ⟨_, _, _, rfl⟩ := candidate?_eq_some.mp one
    obtain ⟨_, _, _, rfl⟩ := candidate?_eq_some.mp two
    rintro (same : first.1 = second.1)
    exact List.lt_irrefl _ (same ▸ below)
  exact (List.mergeSort_perm _ _).pairwise_iff (fun differ => differ.symm) |>.mpr apart

variable {store : Store} {column word : Text}

section Covered

variable (covered : ∀ s ∈ store.segments, column ∈ s.columns)
include covered

theorem mem_candidates {c : Candidate} : c ∈ candidates (store.vocabulary column) word ↔
    Eligible store column word c.term ∧
      c = ⟨Edit.distance word c.term, (store.holders column c.term).length, c.term⟩ := by
  rw [candidates, List.mem_mergeSort, List.mem_filterMap]
  constructor
  · rintro ⟨⟨term, count⟩, entry, made⟩
    obtain ⟨first, far, near, rfl⟩ := candidate?_eq_some.mp made
    obtain ⟨listed, rfl⟩ := (Store.mem_vocabulary_iff covered).mp entry
    exact ⟨⟨listed, first, far, near⟩, rfl⟩
  · rintro ⟨⟨listed, first, far, near⟩, same⟩
    exact ⟨(c.term, _), (Store.mem_vocabulary_iff covered).mpr ⟨listed, rfl⟩,
      candidate?_eq_some.mpr ⟨first, far, near, same⟩⟩

theorem ranks_candidates (word : Text) :
    Ranks store column word ((candidates (store.vocabulary column) word).map (·.term)) where
  each := fun term => by
    rw [List.mem_map]
    constructor
    · rintro ⟨c, member, rfl⟩
      exact ((mem_candidates covered).mp member).1
    · intro eligible
      exact ⟨⟨Edit.distance word term, (store.holders column term).length, term⟩,
        (mem_candidates covered).mpr ⟨eligible, rfl⟩, rfl⟩
  ordered := by
    have sorted : (candidates (store.vocabulary column) word).Pairwise
        fun a b => comesFirst a b = true :=
      @List.pairwise_mergeSort _ comesFirst (fun _ _ _ => comesFirst_trans) comesFirst_total _
    refine List.pairwise_map.mpr ?_
    refine (sorted.and (terms_distinct _ word)).imp_of_mem ?_
    rintro a b first second ⟨before, differ⟩
    rw [comesFirst_iff, ((mem_candidates covered).mp first).2,
      ((mem_candidates covered).mp second).2] at before
    refine before.imp_right (And.imp_right (Or.imp_right (And.imp_right fun below => ?_)))
    exact Dict.above_of_not_below below differ.symm

end Covered

theorem before_irrefl (store : Store) (column word a : Text) :
    ¬ Before store column word a a := by
  rintro (near | ⟨_, often | ⟨_, low⟩⟩)
  · exact Nat.lt_irrefl _ near
  · exact Nat.lt_irrefl _ often
  · exact List.lt_irrefl _ low

/-- The beginning of the order is the best that there is. -/
theorem Ranks.offers {terms : List Text} (ranks : Ranks store column word terms) (size : Nat) :
    Offers store column word size (terms.take size) where
  once := by
    refine (ranks.ordered.imp ?_).sublist (List.take_sublist size terms)
    rintro a b before rfl
    exact before_irrefl store column word a before
  all := by
    intro room term eligible
    have whole : terms.take size = terms := by
      rw [List.length_take] at room
      exact List.take_of_length_le (by omega)
    rw [whole]
    exact (ranks.each term).mpr eligible
  best := by
    intro term eligible absent offered member
    have ordered := ranks.ordered
    rw [← List.take_append_drop size terms, List.pairwise_append] at ordered
    have among := (ranks.each term).mpr eligible
    rw [← List.take_append_drop size terms, List.mem_append, or_iff_right absent] at among
    exact ordered.2.2 offered member term among

end Spelling

namespace Catalog

open Spelling

/-- For every column asked for that there is, and every word of at least four characters,
the candidates are the first of all eligible terms. -/
theorem spellings_best {catalog : Catalog} (reachable : catalog.Reachable)
    (words fields : List Text) (size : Nat) :
    (∀ a b, IsLeast {n | Edit.Edits n a b} (Edit.distance a b)) ∧
      ∃ ranking : Text → Text → List Text,
        (∀ column ∈ catalog.columns, ∀ word,
          Ranks catalog.store column word (ranking column word) ∧
            Offers catalog.store column word size ((ranking column word).take size)) ∧
        catalog.spellings words fields size =
          (fields.filter (· ∈ catalog.columns)).flatMap fun column =>
            (words.filter (4 ≤ ·.length)).flatMap fun word =>
              ((ranking column word).take size).map (word, ·) := by
  have regular := regular_of_reachable reachable
  refine ⟨Edit.isLeast_distance, fun column word =>
    (candidates (catalog.store.vocabulary column) word).map (·.term), ?_, ?_⟩
  · intro column visible word
    have covered : ∀ s ∈ catalog.store.segments, column ∈ s.columns := fun s present =>
      regular.segments s present ▸ regular.columns column visible
    have ranks := ranks_candidates covered word
    exact ⟨ranks, ranks.offers size⟩
  · have visible : fields.filter catalog.columns.contains =
        fields.filter (· ∈ catalog.columns) :=
      List.filter_congr fun name _ => by simp
    rw [spellings, visible]
    simp only [← List.map_take, List.map_map]
    rfl

-- A letter that was replaced still lends its words to the spelling.
def penned (id name : String) : Session.Step :=
  .add ⟨id.toList, "brief".toList, none, Dict.empty.insert "naam".toList name.toList⟩

def post : DocumentType :=
  { name := "brief".toList
    title := none
    fields := [⟨"naam".toList, none⟩]
    sortColumns := .empty
    yearSource := none }

def mailbag : Catalog :=
  Session.after (.create ⟨[post]⟩)
    [penned "1" "bakker jan", penned "2" "bakkes", .commit, penned "1" "bakken", .commit]

theorem spellings_best_mailbag :
    mailbag.Reachable ∧ ∃ terms,
      Ranks mailbag.store "naam".toList "bakkr".toList terms ∧
        terms.take 2 = ["bakker".toList, "bakken".toList] := by
  have reachable : mailbag.Reachable :=
    Session.reachable_after (.create (show Collection.ofTypes [post] = .ok ⟨[post]⟩ from rfl)) _
  obtain ⟨_, ranking, ranks, offered⟩ := spellings_best reachable
    ["jan".toList, "bakkr".toList] ["adres".toList, "naam".toList] 2
  have found : mailbag.spellings ["jan".toList, "bakkr".toList] ["adres".toList, "naam".toList] 2 =
      ["bakker".toList, "bakken".toList].map ("bakkr".toList, ·) := by
    cbv
  have columns : ["adres".toList, "naam".toList].filter (· ∈ mailbag.columns) =
      ["naam".toList] := by
    decide +kernel
  have long : ["jan".toList, "bakkr".toList].filter (4 ≤ ·.length) = ["bakkr".toList] := by
    decide
  rw [found, columns, long] at offered
  simp only [List.flatMap_cons, List.flatMap_nil, List.append_nil] at offered
  have visible : "naam".toList ∈ mailbag.columns := by decide +kernel
  refine ⟨reachable, _, (ranks _ visible _).1, ?_⟩
  exact (List.map_injective_iff.mpr (fun _ _ same => (Prod.mk.inj same).2) offered).symm

end Catalog

end CardCatalog
