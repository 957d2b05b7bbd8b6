import CardCatalog.Proofs.Dict
import CardCatalog.Suggestion

/-!
Which candidates there are, and what they are linked to. Whatever the order the options come
in, a word has all of its options that are no seeds, in ascending order; and of the keywords
that a candidate is offered for, the last one has the link.
-/

namespace CardCatalog

namespace Suggestion

section Collecting

variable {options options' pairs : List (Text × Text)} {seeds seeds' : List Text}
  {word candidate : Text}

def gathered (found : Dict WordSet) (word : Text) : List Text :=
  ((found.get? word).getD .empty).words

theorem mem_gathered_addOption {found : Dict WordSet} {pair : Text × Text} :
    candidate ∈ gathered (addOption found pair) word ↔
      candidate ∈ gathered found word ∨ (word, candidate) = pair := by
  obtain ⟨w, c⟩ := pair
  by_cases same : word = w
  · subst same
    simp [gathered, addOption, Dict.get?_insert_self, WordSet.mem_insert, or_comm]
  · simp [gathered, addOption, Dict.get?_insert_other _ same, same]

theorem mem_gathered_foldl (found : Dict WordSet) :
    candidate ∈ gathered (pairs.foldl addOption found) word ↔
      candidate ∈ gathered found word ∨ (word, candidate) ∈ pairs := by
  induction pairs generalizing found with
  | nil => simp
  | cons pair rest ih =>
    rw [List.foldl_cons, ih, mem_gathered_addOption, List.mem_cons, or_assoc]

theorem words_ne_nil (pairs : List (Text × Text)) :
    ∀ entry ∈ (pairs.foldl addOption .empty).entries, entry.2.words ≠ [] := by
  apply Dict.forall_foldl_insert (P := fun _ set => WordSet.words set ≠ [])
  · intro found _ pair _
    exact List.ne_nil_of_mem (WordSet.mem_insert.mpr (.inl rfl))
  · simp [Dict.empty]

theorem mem_gathered {set : WordSet} :
    (word, set) ∈ (pairs.foldl addOption .empty).entries ↔
      set.words ≠ [] ∧ ∀ candidate, candidate ∈ set.words ↔ (word, candidate) ∈ pairs := by
  have listed (candidate : Text) :
      candidate ∈ gathered (pairs.foldl addOption .empty) word ↔ (word, candidate) ∈ pairs :=
    (mem_gathered_foldl .empty).trans (or_iff_right List.not_mem_nil)
  simp only [← listed, gathered]
  constructor
  · intro entry
    rw [Dict.get?_eq_some.mpr entry]
    exact ⟨words_ne_nil pairs _ entry, fun _ => Iff.rfl⟩
  · rintro ⟨some, same⟩
    obtain ⟨candidate, inside⟩ := List.exists_mem_of_ne_nil _ some
    have present := (same candidate).mp inside
    cases found : (pairs.foldl addOption .empty).get? word with
    | none =>
      rw [found] at present
      cases present
    | some other =>
      rw [found] at same
      rw [WordSet.ext_words same]
      exact Dict.get?_eq_some.mp found

theorem mem_collect_iff {offered : List Text} :
    (word, offered) ∈ (collect options seeds).entries ↔
      offered ≠ [] ∧ offered.Pairwise (· < ·) ∧
        ∀ candidate, candidate ∈ offered ↔ (word, candidate) ∈ options ∧ candidate ∉ seeds := by
  have fresh (candidate : Text) :
      (word, candidate) ∈ options.filter (fun pair => !seeds.contains pair.2) ↔
        (word, candidate) ∈ options ∧ candidate ∉ seeds := by
    simp
  simp only [← fresh]
  rw [collect, Dict.mem_filterMap]
  constructor
  · rintro ⟨set, entry, made⟩
    cases made
    obtain ⟨some, same⟩ := mem_gathered.mp entry
    exact ⟨some, set.ascending, same⟩
  · rintro ⟨some, ascending, same⟩
    exact ⟨⟨offered, ascending⟩, mem_gathered.mpr ⟨some, same⟩, rfl⟩

theorem collect_congr (pairs : ∀ pair, pair ∈ options ↔ pair ∈ options')
    (dropped : ∀ seed, seed ∈ seeds ↔ seed ∈ seeds') :
    collect options seeds = collect options' seeds' := by
  apply Dict.ext_entries
  intro word offered
  simp only [mem_collect_iff, pairs, dropped]

theorem mem_collect {offered : List Text} (entry : (word, offered) ∈ (collect options seeds).entries)
    (member : candidate ∈ offered) : (word, candidate) ∈ options ∧ candidate ∉ seeds :=
  ((mem_collect_iff.mp entry).2.2 candidate).mp member

theorem mem_seeds {keywords : WordSet} :
    word ∈ Suggestion.seeds keywords ↔
      word ∈ keywords.words ∧ word.all Text.isDigit = false := by
  simp [Suggestion.seeds, List.mem_filter]

end Collecting

section Linking

variable {keywords : WordSet} {candidates : Candidates} {params : Link}
  {word candidate url : Text}

def Offers (keywords : WordSet) (candidates : Candidates) (candidate word : Text) : Prop :=
  word ∈ keywords.words ∧ ∃ offered, (word, offered) ∈ candidates.entries ∧ candidate ∈ offered

/-- The last of the keywords that have the candidate, in the order of code points. -/
structure LastOffers (keywords : WordSet) (candidates : Candidates) (candidate word : Text) :
    Prop where
  offers : Offers keywords candidates candidate word
  last : ∀ other, Offers keywords candidates candidate other → ¬ word < other

theorem LastOffers.unique {word' : Text} (one : LastOffers keywords candidates candidate word)
    (other : LastOffers keywords candidates candidate word') : word = word' := by
  have least := List.not_lt.mp (other.last word one.offers)
  have greatest := List.not_lt.mp (one.last word' other.offers)
  exact List.le_antisymm least greatest

def offerPairs (keywords : WordSet) (candidates : Candidates) : List (Text × Text) :=
  (candidates.entries.filter fun entry => keywords.has entry.1).flatMap
    fun entry => entry.2.map (entry.1, ·)

theorem mem_offerPairs :
    (word, candidate) ∈ offerPairs keywords candidates ↔
      Offers keywords candidates candidate word := by
  simp only [offerPairs, List.mem_flatMap, List.mem_filter, List.mem_map, WordSet.has,
    List.contains_iff_mem, Offers]
  constructor
  · rintro ⟨⟨w, offered⟩, ⟨listed, keyword⟩, c, inside, same⟩
    cases same
    exact ⟨keyword, offered, listed, inside⟩
  · rintro ⟨keyword, offered, listed, inside⟩
    exact ⟨(word, offered), ⟨listed, keyword⟩, candidate, inside, rfl⟩

theorem offerPairs_ascending (keywords : WordSet) (candidates : Candidates) :
    (offerPairs keywords candidates).Pairwise fun p q => ¬ q.1 < p.1 := by
  have sorted := candidates.ascending.filter fun entry => keywords.has entry.1
  refine List.pairwise_flatMap.mpr ⟨fun entry _ => ?_, sorted.imp fun below p first q second => ?_⟩
  · exact List.pairwise_map.mpr (List.pairwise_of_forall fun _ _ => List.lt_irrefl _)
  · obtain ⟨_, _, rfl⟩ := List.mem_map.mp first
    obtain ⟨_, _, rfl⟩ := List.mem_map.mp second
    exact fun above => List.lt_irrefl _ (List.lt_trans below above)

theorem lastOffers_of_find {pair : Text × Text}
    (found : (offerPairs keywords candidates).reverse.find? (·.2 == candidate) = some pair) :
    LastOffers keywords candidates candidate pair.1 := by
  obtain ⟨same, back, front, split, later⟩ := List.find?_eq_some_iff_append.mp found
  obtain ⟨word, other⟩ := pair
  obtain rfl : other = candidate := beq_iff_eq.mp same
  have member : (word, other) ∈ (offerPairs keywords candidates).reverse := by simp [split]
  refine ⟨mem_offerPairs.mp (List.mem_reverse.mp member), fun earlier offers => ?_⟩
  have among := List.mem_reverse.mpr (mem_offerPairs.mpr offers)
  have descending := List.pairwise_reverse.mpr (offerPairs_ascending keywords candidates)
  rw [split] at among descending
  rcases List.mem_append.mp among with behind | here
  · have apart := later _ behind
    simp at apart
  · rcases List.mem_cons.mp here with first | before
    · cases first
      exact List.lt_irrefl _
    · exact (List.pairwise_cons.mp (List.pairwise_append.mp descending).2.1).1 _ before

theorem mem_links_iff :
    (candidate, url) ∈ (links keywords candidates params).entries ↔
      ∃ word, LastOffers keywords candidates candidate word ∧ url = link params word candidate := by
  have looked : (links keywords candidates params).get? candidate =
      ((offerPairs keywords candidates).reverse.find? (·.2 == candidate)).map
        fun pair => link params pair.1 pair.2 := by
    rw [links, Dict.get?_ofPairs_last, ← List.map_reverse, List.find?_map, Option.map_map]
    rfl
  rw [← Dict.get?_eq_some, looked, Option.map_eq_some_iff]
  constructor
  · rintro ⟨pair, found, rfl⟩
    have same : pair.2 = candidate := by simpa using List.find?_some found
    exact ⟨pair.1, lastOffers_of_find found, by rw [same]⟩
  · rintro ⟨word, lastOne, rfl⟩
    have among := List.mem_reverse.mpr (mem_offerPairs.mpr lastOne.offers)
    have some : ((offerPairs keywords candidates).reverse.find? (·.2 == candidate)).isSome := by
      rw [List.find?_isSome]
      exact ⟨_, among, beq_self_eq_true candidate⟩
    obtain ⟨pair, found⟩ := Option.isSome_iff_exists.mp some
    have same : pair.2 = candidate := by simpa using List.find?_some found
    have other := lastOffers_of_find found
    exact ⟨pair, found, by rw [lastOne.unique other, same]⟩

theorem mem_links (member : (candidate, url) ∈ (links keywords candidates params).entries) :
    ∃ word offered, (word, offered) ∈ candidates.entries ∧ word ∈ keywords.words ∧
      candidate ∈ offered ∧ url = link params word candidate := by
  obtain ⟨word, ⟨⟨keyword, offered, listed, inside⟩, _⟩, same⟩ := mem_links_iff.mp member
  exact ⟨word, offered, listed, keyword, inside, same⟩

end Linking

/-- The candidates say nothing about the order in which they came in, and the links nothing
about any but the last keyword. -/
theorem suggestions_exact (options options' : List (Text × Text)) (seeds seeds' : List Text)
    (keywords : WordSet) (candidates : Candidates) (params : Link) :
    (∀ word offered, (word, offered) ∈ (collect options seeds).entries ↔
      offered ≠ [] ∧ offered.Pairwise (· < ·) ∧
        ∀ candidate, candidate ∈ offered ↔ (word, candidate) ∈ options ∧ candidate ∉ seeds) ∧
    ((∀ pair, pair ∈ options ↔ pair ∈ options') → (∀ seed, seed ∈ seeds ↔ seed ∈ seeds') →
      collect options seeds = collect options' seeds') ∧
    ∀ candidate url, (candidate, url) ∈ (links keywords candidates params).entries ↔
      ∃ word, LastOffers keywords candidates candidate word ∧
        url = Link.queryString
          { params with query := Correction.addBehind word candidate params.query } :=
  ⟨fun _ _ => mem_collect_iff, collect_congr, fun _ _ => mem_links_iff⟩

-- Two keywords with a candidate in common.
def slips : List (Text × Text) :=
  [("jan".toList, "jans".toList), ("jan".toList, "jaan".toList), ("jas".toList, "jans".toList),
    ("jas".toList, "jan".toList)]

def names : WordSet := .ofList ["jan".toList, "jas".toList]

theorem suggestions_exact_slips :
    (∀ pair, pair ∈ slips ↔ pair ∈ slips.reverse ++ slips) ∧
    (∀ seed, seed ∈ seeds names ↔ seed ∈ (seeds names).reverse) ∧
    collect slips (seeds names) = collect (slips.reverse ++ slips) (seeds names).reverse ∧
    (∀ candidate, candidate ∈ ["jaan".toList, "jans".toList] ↔
      ("jan".toList, candidate) ∈ slips ∧ candidate ∉ seeds names) ∧
    ∃ word, LastOffers names (collect slips (seeds names)) "jans".toList word ∧
      "?q=jan%20jas%20jans".toList = Link.queryString
        ⟨Correction.addBehind word "jans".toList "jan jas".toList, [], none⟩ := by
  have pairs : ∀ pair, pair ∈ slips ↔ pair ∈ slips.reverse ++ slips := by simp
  have dropped : ∀ seed, seed ∈ seeds names ↔ seed ∈ (seeds names).reverse := by simp
  obtain ⟨listed, same, linked⟩ := suggestions_exact slips (slips.reverse ++ slips) (seeds names)
    (seeds names).reverse names (collect slips (seeds names)) ⟨"jan jas".toList, [], none⟩
  have url : ("jans".toList, "?q=jan%20jas%20jans".toList) ∈
      (links names (collect slips (seeds names)) ⟨"jan jas".toList, [], none⟩).entries := by
    decide +kernel
  have entry : ("jan".toList, ["jaan".toList, "jans".toList]) ∈
      (collect slips (seeds names)).entries := by
    decide +kernel
  exact ⟨pairs, dropped, same pairs dropped, ((listed _ _).mp entry).2.2, (linked _ _).mp url⟩

end Suggestion

end CardCatalog
