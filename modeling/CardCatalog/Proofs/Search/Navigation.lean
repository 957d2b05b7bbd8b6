import CardCatalog.Proofs.Collection.Accepted
import CardCatalog.Proofs.Link
import CardCatalog.Proofs.Paging
import CardCatalog.Proofs.Query.Quotation
import CardCatalog.Proofs.Search.Pages

/-!
Where the links under a result lead. Every page in the bar begins within what was found, but
the bar is made from all that was found, and of that only the first ten thousand are shown.
So a link shows a hit exactly if its page begins among these.
-/

namespace CardCatalog

theorem Ranking.window_ne_nil {α : Type} {ranking : List α} {offset limit : Nat}
    (room : 1 ≤ limit) :
    window ranking offset limit ≠ [] ↔ offset < min ranking.length depth := by
  rw [← List.length_pos_iff, window, List.length_take, List.length_drop, List.length_take]
  omega

namespace Search

variable {config : Config} {catalog : Catalog} {params : SearchParams} {shown : ResultPage}

theorem turned_page (reachable : catalog.Reachable) (room : 1 ≤ config.pageSize)
    (ran : run config catalog params = .ok (.results shown)) {n : Nat} (first : 1 ≤ n) :
    ∃ other, run config catalog { params with page := n } = .ok (.results other) ∧
      other.total = shown.total ∧
      (other.hits ≠ [] ↔ (n - 1) * config.pageSize < min shown.total Ranking.depth) := by
  obtain ⟨given, reached⟩ := Catalog.reached_of_reachable reachable
  obtain ⟨selection, compiled, found, answered, rfl⟩ := answered_of_run ran
  obtain ⟨ranking, _, cuts⟩ := Catalog.exists_ranking Upkeep.keepsOrder_idle reached answered.made
    (selection.map (·.name)) (params.sort.bind (YearOrder.resolve selection))
  have turned := answered_page answered cuts
  have total : ranking.length = found.total := by
    have same := (turned params.page).found.symm.trans answered.found
    exact congrArg Hits.total (Except.ok.inj same)
  have place : max n 1 - 1 = n - 1 := by omega
  refine ⟨_, run_of_answered (turned n), total, ?_⟩
  change Ranking.window ranking ((max n 1 - 1) * config.pageSize) config.pageSize ≠ [] ↔
    _ < min found.total Ranking.depth
  rw [place, Ranking.window_ne_nil room, total]

/-- A link in the bar leads to a page of results, and it has hits if it begins at one that
can be shown. -/
theorem listed_page_shows (accepted : config.Accepted) (reachable : catalog.Reachable)
    (ran : run config catalog params = .ok (.results shown)) (some : 1 ≤ shown.total) {n : Nat}
    (listed : n ∈ shown.pages) :
    ∃ other, run config catalog { params with page := n } = .ok (.results other) ∧
      (other.hits ≠ [] ↔ (n - 1) * config.pageSize < Ranking.depth) := by
  have bar : ∃ page, shown.pages = Paging.pages (Paging.window shown.total page config.pageSize) := by
    obtain ⟨_, _, _, _, rfl⟩ := answered_of_run ran
    exact ⟨_, rfl⟩
  obtain ⟨page, same⟩ := bar
  obtain ⟨first, last⟩ := Paging.mem_pages (same ▸ listed)
  have begins := Paging.page_begins some accepted.room first last
  obtain ⟨other, turned, _, filled⟩ := turned_page reachable accepted.room ran first
  refine ⟨other, turned, filled.trans ?_⟩
  rw [Nat.lt_min]
  exact and_iff_right begins

-- A ledger with one account more than can be shown.
def numbered (i : Nat) : Entry :=
  ⟨Text.natural i, ledger.name, none, Dict.empty.insert "naam".toList "jan".toList⟩

def crowdSteps (n : Nat) : List Session.Step :=
  (List.range n).map (fun i => .add (numbered i)) ++ [.commit]

def crowd (n : Nat) : Catalog := Session.after (.create ⟨[ledger]⟩) (crowdSteps n)

theorem card_numbered (i : Nat) :
    (numbered i).card? ⟨[ledger]⟩ = .ok (Session.stored (numbered i) ledger) := by
  have filled : (Text.trim (Text.natural i)).isEmpty = false := by
    obtain ⟨c, rest, same⟩ := List.exists_cons_of_ne_nil (@Nat.toDigits_ne_nil i 10)
    have inside : c ∈ Text.natural i := by simp [Text.natural, same]
    have digit := Text.isDigit_of_mem_natural inside
    simpa using Text.trim_ne_nil inside (Query.numeral_solid (.inl digit)).1
  have found : Collection.get? ⟨[ledger]⟩ (numbered i).type = some ledger := rfl
  have id : (numbered i).id = Text.natural i := rfl
  rw [Entry.card?, found]
  simp only [id, filled]
  rfl

theorem cards_crowd (n : Nat) :
    (crowd n).store.cards = (List.range n).map fun i => Session.stored (numbered i) ledger := by
  have settled : Session.settled (crowdSteps n) = crowdSteps n := Session.settled_concat _ .commit
  have added : Session.adds ⟨[ledger]⟩ (crowdSteps n) = (List.range n).map numbered := by
    rw [crowdSteps, Session.adds_concat, Session.adds, List.filterMap_map]
    have each : (Session.added? ⟨[ledger]⟩ ∘ fun i => .add (numbered i)) =
        some ∘ numbered := by
      funext i
      exact if_pos (Session.accepted_iff.mpr ⟨_, card_numbered i⟩)
    rw [each, List.filterMap_eq_map]
    exact List.append_nil _
  have stored : Session.cardsOf ⟨[ledger]⟩ ((List.range n).map numbered) =
      (List.range n).map fun i => Session.stored (numbered i) ledger := by
    rw [Session.cardsOf, List.filterMap_map]
    have each : ((fun entry => (entry.card? ⟨[ledger]⟩).toOption) ∘ numbered) =
        some ∘ fun i => Session.stored (numbered i) ledger := by
      funext i
      simp only [Function.comp, card_numbered]
      rfl
    rw [each, List.filterMap_eq_map]
  have unique : (((List.range n).map fun i => Session.stored (numbered i) ledger).map
      (·.id)).Nodup := by
    rw [List.map_map]
    refine List.Nodup.map (fun i j same => ?_) List.nodup_range
    have numbers := congrArg Text.number (show Text.natural i = Text.natural j from same)
    rwa [Text.number_natural, Text.number_natural] at numbers
  rw [crowd, (Session.mirrors_after ⟨[ledger]⟩ (crowdSteps n)).cards, settled, added, stored,
    Latest.cards_of_nodup unique]

theorem holds_numbered (i : Nat) :
    Holds.plan ["naam".toList] (Session.stored (numbered i) ledger) compiledJan.plan
      [ledger.name] := by
  -- the number of an account is nothing that the plan looks at
  have first : Holds.plan ["naam".toList] (Session.stored (numbered 0) ledger) compiledJan.plan
      [ledger.name] := by
    decide +kernel
  exact first

def crowdConfig : Config := ⟨Ranking.depth, 5, [], ⟨[ledger]⟩⟩

theorem crowdConfig_accepted : crowdConfig.Accepted := ⟨⟨Ranking.depth, 5, [], [ledger]⟩, by rfl⟩

theorem total_crowd (n : Nat) :
    ∃ shown, run crowdConfig (crowd n) byYear = .ok (.results shown) ∧ shown.total = n ∧
      shown.pages = Paging.pages (Paging.window n 1 Ranking.depth) := by
  have known : (crowd n).unknownColumn compiledJan.plan = none := rfl
  have answered : Answered crowdConfig (crowd n) byYear [ledger] compiledJan _ :=
    ⟨rfl, by rfl, Catalog.retrieve_known known⟩
  have regular := Catalog.regular_of_reachable (ledger_reachable (crowdSteps n))
  have full := Query.full_of_compile answered.made [ledger.name]
  have columns : (crowd n).columns = ["naam".toList] := by
    rw [crowd, Catalog.columns, (Session.mirrors_after ⟨[ledger]⟩ (crowdSteps n)).same]
    decide +kernel
  have total := Catalog.total_eq_length answered.found regular
  have all : ((crowd n).matched (request crowdConfig [ledger] compiledJan.plan byYear)).length =
      n := by
    rw [Catalog.matched, cards_crowd, List.filter_eq_self.mpr, List.length_map, List.length_range]
    intro card member
    obtain ⟨i, _, rfl⟩ := List.mem_map.mp member
    rw [columns]
    exact decide_eq_true ⟨full, holds_numbered i⟩
  refine ⟨_, run_of_answered answered, total.trans all, ?_⟩
  exact congrArg (fun total => Paging.pages (Paging.window total 1 Ranking.depth)) (total.trans all)

/-- The last account has a page of its own in the bar, which does not show it. -/
theorem last_link_dead :
    crowdConfig.Accepted ∧ (crowd 10001).Reachable ∧ ∃ shown other,
      run crowdConfig (crowd 10001) byYear = .ok (.results shown) ∧ 1 ≤ shown.total ∧
      2 ∈ shown.pages ∧ run crowdConfig (crowd 10001) { byYear with page := 2 } =
        .ok (.results other) ∧ other.hits = [] := by
  have reachable : (crowd 10001).Reachable := ledger_reachable _
  obtain ⟨shown, ran, total, pages⟩ := total_crowd 10001
  obtain ⟨other, turned, _, filled⟩ :=
    turned_page reachable crowdConfig_accepted.room ran (show 1 ≤ 2 by decide)
  have listed : 2 ∈ shown.pages := by
    rw [pages]
    decide
  have none : ¬ (2 - 1) * crowdConfig.pageSize < min shown.total Ranking.depth := by
    rw [total]
    decide
  refine ⟨crowdConfig_accepted, reachable, shown, other, ran, by omega, listed, turned, ?_⟩
  exact Classical.not_not.mp fun some => none (filled.mp some)

theorem listed_page_shows_crowd :
    ∃ shown first, run crowdConfig (crowd 10001) byYear = .ok (.results shown) ∧
      1 ≤ shown.total ∧ shown.pages = [1, 2] ∧
      run crowdConfig (crowd 10001) { byYear with page := 1 } = .ok (.results first) ∧
      first.hits ≠ [] := by
  have reachable : (crowd 10001).Reachable := ledger_reachable _
  obtain ⟨shown, ran, total, pages⟩ := total_crowd 10001
  have bar : shown.pages = [1, 2] := by
    rw [pages]
    decide
  have listed : 1 ∈ shown.pages := by
    rw [bar]
    decide
  have some : 1 ≤ shown.total := by omega
  obtain ⟨first, turned, filled⟩ :=
    listed_page_shows crowdConfig_accepted reachable ran some listed
  exact ⟨shown, first, ran, some, bar, turned, filled.mpr (by decide)⟩

end Search

end CardCatalog
