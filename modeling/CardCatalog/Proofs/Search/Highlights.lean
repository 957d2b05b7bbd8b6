import CardCatalog.Proofs.Index.Highlight
import CardCatalog.Proofs.Index.Reopening
import CardCatalog.Proofs.Search.Selections

/-!
Why a hit was found. A card is looked up in postings, but highlighted from its text; the
two agree, since a term of the text is sought in a field exactly where some leaf of the
plan asks for it there. So every leaf of a compiled plan can be seen in a hit, and nothing
else is in bold.
-/

namespace CardCatalog

namespace Query

variable {plan : Plan} {column : Text}

instance (plan : Plan) (column term : Text) : Decidable (Seeks plan column term) :=
  inferInstanceAs (Decidable
    (∃ leaf ∈ plan.leaves, column ∈ leaf.columns ∧ term ∈ Analysis.terms leaf.text))

/-- The run is a term that the plan looks for in the column. -/
def Marks (plan : Plan) (column run : Text) : Prop :=
  Analysis.isKept run = true ∧ Seeks plan column (Analysis.term run)

instance (plan : Plan) (column run : Text) : Decidable (Marks plan column run) :=
  inferInstanceAs (Decidable (_ ∧ _))

end Query

namespace Holds

variable {columns : List Text} {card : Card}

theorem has_iff {column term : Text} :
    has card column term ↔ ∃ t, card.fields.get? column = some t ∧ term ∈ Analysis.terms t := by
  rw [has, slots]
  cases card.fields.get? column with
  | none => simp
  | some t => simp [Analysis.terms_eq_slots]

theorem exists_has {leaf : Leaf} (known : ∀ name value, leaf = .field name value → name ∈ columns)
    (holds : Holds.leaf columns card leaf) :
    ∃ column ∈ leaf.columns, column ∈ columns ∧
      ∃ term ∈ Analysis.terms leaf.text, has card column term := by
  cases leaf with
  | field name value =>
    obtain ⟨asked, all⟩ := holds
    obtain ⟨term, member⟩ := List.exists_mem_of_ne_nil _ asked
    exact ⟨name, List.mem_singleton_self _, known name value rfl, term, member, all term member⟩
  | phrase text fields =>
    obtain ⟨field, listed, column, asked, together⟩ := holds
    obtain ⟨term, member⟩ := List.exists_mem_of_ne_nil _ asked
    exact ⟨field.name, List.mem_map_of_mem listed, column, term, member,
      together.subset (List.mem_map_of_mem member)⟩
  | fuzzy text fields =>
    obtain ⟨field, listed, column, term, member, has⟩ := holds
    exact ⟨field.name, List.mem_map_of_mem listed, column, term, member, has⟩

theorem leaf_of_plan {plan : Plan} {types : List Text}
    (holds : Holds.plan columns card plan types) :
    ∀ leaf ∈ plan.leaves, Holds.leaf columns card leaf := by
  intro leaf member
  obtain ⟨group, listed, among⟩ := List.mem_flatMap.mp member
  obtain ⟨clause, inside, asked⟩ := List.mem_flatMap.mp among
  exact clause_iff.mp (holds.1 group listed clause inside) leaf asked

end Holds

theorem Plan.Full.leaves_ne_nil {plan : Plan} {types : List Text} (full : plan.Full types)
    (some : plan.groups ≠ []) : plan.leaves ≠ [] := by
  obtain ⟨group, listed⟩ := List.exists_mem_of_ne_nil _ some
  obtain ⟨clause, inside⟩ := List.exists_mem_of_ne_nil _ (full.groups group listed)
  obtain ⟨leaf, asked⟩ := List.exists_mem_of_ne_nil _ (full.clauses group listed clause inside)
  have among := List.mem_flatMap.mpr ⟨clause, inside, asked⟩
  exact List.ne_nil_of_mem (List.mem_flatMap.mpr ⟨group, listed, among⟩)

namespace Catalog

variable {catalog : Catalog}

open Highlight (Parts written)

theorem share_isSome (plan : Plan) (column run : Text) :
    (Highlight.shareOf (catalog.share plan column) (.token run run)).isSome =
      decide (Query.Marks plan column run) := by
  have sought : (catalog.share plan column (Analysis.term run)).isSome =
      decide (Query.Seeks plan column (Analysis.term run)) := by
    rw [share, Bool.eq_iff_iff, decide_eq_true_iff, ← mem_termsOn, ← List.contains_iff_mem]
    split <;> simp_all
  rw [Highlight.shareOf]
  cases kept : Analysis.isKept run <;> simp [Query.Marks, kept, sought]

section Hits

variable {request : Request} {found : Hits} (answered : catalog.retrieve request = .ok found)
  {hit : Hit} (member : hit ∈ found.hits)
include answered member

theorem get?_highlights (column : Text) : hit.highlights.get? column =
    (hit.card.fields.get? column).bind
      (Highlight.ofText (catalog.share request.plan column)) := by
  have known := (catalog.unknownColumn_eq_none request.plan).mpr (known_of_retrieve answered)
  rw [retrieve_known known] at answered
  cases answered
  have ranked := List.mem_of_mem_take (List.mem_of_mem_drop (List.mem_of_mem_take member))
  obtain ⟨f, _, rfl⟩ := List.mem_map.mp ranked
  exact Dict.get?_filterMap ..

variable {column t : Text} (stored : hit.card.fields.get? column = some t)
  (fits : Text.octetCount t ≤ 100000)
include stored fits

theorem highlight_eq {d : Division} (pieces : Analysis.pieces t = d.pieces id)
    {shown behind : List (Text × Text)} (parts : Parts d.found shown behind) :
    hit.highlights.get? column =
      if ∃ cut ∈ d.found, Query.Marks request.plan column cut.2 then
        some (written (fun run => decide (Query.Marks request.plan column run)) shown)
      else none := by
  have same := catalog.share_isSome request.plan column
  -- what is behind the last term is no term, so it makes no difference whether there is one
  have front : (shown.any fun cut => decide (Query.Marks request.plan column cut.2)) = true ↔
      ∃ cut ∈ d.found, Query.Marks request.plan column cut.2 := by
    rw [List.any_eq_true, parts.whole]
    simp only [decide_eq_true_iff, List.mem_append]
    constructor
    · rintro ⟨cut, listed, marks⟩
      exact ⟨cut, .inl listed, marks⟩
    · rintro ⟨cut, listed | listed, marks⟩
      · exact ⟨cut, listed, marks⟩
      · rw [Query.Marks, parts.behind cut listed] at marks
        cases marks.1
  rw [get?_highlights answered member, stored, Option.bind_some,
    Highlight.ofText_eq fits pieces parts same]
  simp only [front]

theorem highlighted_iff {d : Division} (pieces : Analysis.pieces t = d.pieces id) :
    (∃ html, hit.highlights.get? column = some html) ↔
      ∃ cut ∈ d.found, Query.Marks request.plan column cut.2 := by
  obtain ⟨shown, behind, parts⟩ := Highlight.exists_parts d.found
  rw [highlight_eq answered member stored fits pieces parts]
  split
  · rename_i marks
    exact ⟨fun _ => marks, fun _ => ⟨_, rfl⟩⟩
  · rename_i none
    exact ⟨nofun, fun marks => absurd marks none⟩

theorem highlighted_of_sought {term : Text} (among : term ∈ Analysis.terms t)
    (sought : Query.Seeks request.plan column term) :
    ∃ html, hit.highlights.get? column = some html := by
  obtain ⟨d, _, _, pieces⟩ := Analysis.exists_runs t
  obtain ⟨run, inside, kept, rfl⟩ := Analysis.mem_terms.mp among
  rw [Analysis.runs, pieces, Division.values_pieces] at inside
  obtain ⟨cut, listed, rfl⟩ := List.mem_map.mp inside
  exact (highlighted_iff answered member stored fits pieces).mpr ⟨cut, listed, kept, sought⟩

end Hits

/-- The highlight of a text that is not too long. There is one exactly where the plan looks
for a term of the text, and it is the text up to its last term, with just those terms in
bold: without the tags and the entities the text is there again, and no other tag is. -/
theorem highlight_faithful {request : Request} {found : Hits}
    (answered : catalog.retrieve request = .ok found) {hit : Hit} (member : hit ∈ found.hits)
    {column t : Text} (stored : hit.card.fields.get? column = some t)
    (fits : Text.octetCount t ≤ 100000) :
    ∃ d, (∀ e, Division.Leftmost Analysis.Run [] t e ↔ e = d) ∧
      ((∃ html, hit.highlights.get? column = some html) ↔
        ∃ cut ∈ d.found, Query.Marks request.plan column cut.2) ∧
      ∀ html, hit.highlights.get? column = some html →
        ∃ shown behind, Parts d.found shown behind ∧ shown ≠ [] ∧
          html = written (fun run => decide (Query.Marks request.plan column run)) shown ∧
          Highlight.unescaped (Highlight.untagged html) =
            (shown.flatMap fun cut => cut.1 ++ cut.2) ∧
          (shown.flatMap fun cut => cut.1 ++ cut.2) <+: t ∧ Highlight.Tagged html := by
  obtain ⟨d, leftmost, only, pieces⟩ := Analysis.exists_runs t
  obtain ⟨shown, behind, parts⟩ := Highlight.exists_parts d.found
  have highlight := highlight_eq answered member stored fits pieces parts
  refine ⟨d, fun e => ⟨only e, fun same => same ▸ leftmost⟩,
    highlighted_iff answered member stored fits pieces, fun html present => ?_⟩
  rw [highlight] at present
  split at present
  · rename_i marks
    cases present
    refine ⟨shown, behind, parts, ?_, rfl, Highlight.unescaped_untagged_written .., ?_,
      Highlight.tagged_written ..⟩
    -- nothing shown would mean that no run is kept, and then none is marked
    · rintro rfl
      obtain ⟨cut, listed, kept, _⟩ := marks
      rw [parts.whole] at listed
      rw [parts.behind cut listed] at kept
      cases kept
    · rw [← leftmost.text, Division.written, parts.whole, List.flatMap_append, List.append_assoc]
      exact List.prefix_append ..
  · cases present

theorem leaf_highlighted (regular : catalog.Regular) {request : Request} {found : Hits}
    (answered : catalog.retrieve request = .ok found) {hit : Hit} (member : hit ∈ found.hits)
    (fits : ∀ column t, hit.card.fields.get? column = some t → Text.octetCount t ≤ 100000)
    {leaf : Leaf} (inside : leaf ∈ request.plan.leaves) :
    ∃ column ∈ leaf.columns, ∃ html, hit.highlights.get? column = some html := by
  obtain ⟨card, matched, same⟩ := mem_hits answered regular member
  have holds := (of_decide_eq_true (List.mem_filter.mp matched).2).2
  have known (name value : Text) (equal : leaf = .field name value) : name ∈ catalog.columns :=
    known_of_retrieve answered name value (equal ▸ inside)
  obtain ⟨column, listed, visible, term, sought, has⟩ :=
    Holds.exists_has known (Holds.leaf_of_plan holds leaf inside)
  obtain ⟨t, stored, among⟩ := Holds.has_iff.mp has
  have shown : hit.card.fields.get? column = some t := by
    rw [same]
    exact (get?_shown card column).trans ((if_pos visible).trans stored)
  exact ⟨column, listed, highlighted_of_sought answered member shown (fits column t shown) among
    ⟨leaf, inside, listed, sought⟩⟩

/-- A hit of a compiled plan is highlighted in a field that the plan looks in, and all of the
plan can be seen in it. -/
theorem hit_highlighted (reachable : catalog.Reachable) {fields : SearchFields} {q : Text}
    {compiled : Compiled} (made : Query.compile fields q = some compiled) {request : Request}
    (asked : request.plan = compiled.plan) {found : Hits}
    (answered : catalog.retrieve request = .ok found) {hit : Hit} (member : hit ∈ found.hits)
    (fits : ∀ column t, hit.card.fields.get? column = some t → Text.octetCount t ≤ 100000) :
    (∃ column html, hit.highlights.get? column = some html ∧
      ∃ leaf ∈ request.plan.leaves, column ∈ leaf.columns) ∧
    ∀ leaf ∈ request.plan.leaves, ∃ column ∈ leaf.columns, ∃ html,
      hit.highlights.get? column = some html := by
  have each (leaf : Leaf) (inside : leaf ∈ request.plan.leaves) :=
    leaf_highlighted (regular_of_reachable reachable) answered member fits inside
  have full : request.plan.Full request.types := asked ▸ Query.full_of_compile made request.types
  have groups : request.plan.groups ≠ [] := asked ▸ (Query.groups_ne_nil made).1
  obtain ⟨leaf, inside⟩ := List.exists_mem_of_ne_nil _ (full.leaves_ne_nil groups)
  obtain ⟨column, listed, html, shown⟩ := each leaf inside
  exact ⟨⟨column, html, shown, leaf, inside, listed⟩, each⟩

-- A deed with markup of its own, found by a scope and a phrase.
def buyer : String := "Jan & <b>Piet</b>"

def notices : Catalog :=
  Session.after (.create ⟨[deeds]⟩)
    [deed "1" buyer "koopt: de Bakker's <i>huis</i>!", deed "2" "Klaas" "de bakker", .commit]

def notes : List (Text × Text) :=
  [("inhoud".toList, "koopt: de Bakker's <i>huis</i>!".toList), ("koper".toList, buyer.toList)]

def notice : Request := ⟨bakersPlan, [], none, 0, 10⟩

theorem notices_reachable : notices.Reachable :=
  Session.reachable_after (.create (show Collection.ofTypes [deeds] = .ok ⟨[deeds]⟩ from rfl)) _

theorem notices_found : ∃ found hit, notices.retrieve notice = .ok found ∧ hit ∈ found.hits ∧
    hit.card.fields.entries = notes := by
  have regular := regular_of_reachable notices_reachable
  have known : notices.unknownColumn notice.plan = none := by decide +kernel
  have answered := retrieve_known known
  have one : (notices.ranked notice.plan notice.types notice.order).length = 1 := by
    rw [← List.length_map Matching.Found.card, (ranked_perm answered regular).length_eq]
    decide +kernel
  obtain ⟨f, ranked⟩ := List.length_eq_one_iff.mp one
  have member : notices.hit notice.plan notice.order f ∈ Ranking.window
      ((notices.ranked notice.plan notice.types notice.order).map
        (notices.hit notice.plan notice.order)) notice.offset notice.limit := by
    rw [ranked]
    exact List.mem_singleton_self _
  obtain ⟨card, matched, same⟩ := mem_hits answered regular member
  have entries : ∀ card ∈ notices.matched notice, (notices.shown card).fields.entries = notes := by
    decide +kernel
  exact ⟨_, _, answered, member, same ▸ entries card matched⟩

theorem highlight_faithful_notice : ∃ found hit html, notices.retrieve notice = .ok found ∧
    hit ∈ found.hits ∧ hit.highlights.get? "koper".toList = some html ∧
    html = "<b>Jan</b> &amp; &lt;b&gt;Piet&lt;/b".toList ∧ Highlight.Tagged html ∧
    Highlight.unescaped (Highlight.untagged html) <+: buyer.toList := by
  obtain ⟨found, hit, answered, member, entries⟩ := notices_found
  have stored : hit.card.fields.get? "koper".toList = some buyer.toList := by
    rw [Dict.get?, entries]
    decide
  have highlight : hit.highlights.get? "koper".toList =
      some "<b>Jan</b> &amp; &lt;b&gt;Piet&lt;/b".toList := by
    rw [get?_highlights answered member, stored]
    decide +kernel
  obtain ⟨_, _, _, faithful⟩ := highlight_faithful answered member stored (by decide +kernel)
  obtain ⟨_, _, _, _, _, text, front, tagged⟩ := faithful _ highlight
  exact ⟨found, hit, _, answered, member, highlight, rfl, tagged, text ▸ front⟩

theorem hit_highlighted_notice : ∃ compiled,
    Query.compile (Selection.searchFields [deeds]) "koper:jan \"de bakker\"".toList =
      some compiled ∧ notice.plan = compiled.plan ∧
    ∃ found hit, notices.retrieve notice = .ok found ∧ hit ∈ found.hits ∧
      ∀ leaf ∈ bakersPlan.leaves, ∃ column ∈ leaf.columns, ∃ html,
        hit.highlights.get? column = some html := by
  obtain ⟨found, hit, answered, member, entries⟩ := notices_found
  have made : Query.compile (Selection.searchFields [deeds]) "koper:jan \"de bakker\"".toList =
      some ⟨bakersPlan, .ofList ["jan".toList, "de".toList, "bakker".toList]⟩ := by rfl
  have short : ∀ entry ∈ hit.card.fields.entries, Text.octetCount entry.2 ≤ 100000 := by
    rw [entries]
    decide +kernel
  refine ⟨_, made, rfl, found, hit, answered, member,
    (hit_highlighted notices_reachable made rfl answered member fun column t stored => ?_).2⟩
  exact short _ (Dict.get?_eq_some.mp stored)

end Catalog

end CardCatalog
