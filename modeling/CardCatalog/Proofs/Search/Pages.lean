import CardCatalog.Proofs.Index.Window
import CardCatalog.Proofs.Paging
import CardCatalog.Proofs.Search.Run

/-!
The pages of a search. They are consecutive windows of one ranking, so turning them
one by one shows each of its first ten thousand hits once, and what comes behind the
last page is empty, however far behind it is.
-/

namespace CardCatalog

namespace Ranking

variable {α : Type}

theorem window_nil {ranking : List α} {offset : Nat} (limit : Nat)
    (beyond : min ranking.length depth ≤ offset) : window ranking offset limit = [] := by
  have short : (ranking.take depth).length ≤ offset := by
    rw [List.length_take]
    omega
  rw [window, List.drop_eq_nil_of_le short, List.take_nil]

/-- Beyond the depth of a ranking it makes no difference how far one goes. -/
theorem window_saturated (ranking : List α) (a b limit : Nat) :
    window ranking (Word.mul a b) limit = window ranking (a * b) limit := by
  by_cases fits : a * b ≤ Word.greatest
  · rw [Word.mul, Nat.min_eq_left fits]
  · have deep : depth ≤ Word.greatest := by decide
    have saturated : Word.mul a b = Word.greatest := Nat.min_eq_right (by omega)
    rw [saturated, window_nil, window_nil] <;> omega

theorem windows_join (ranking : List α) (size count : Nat) :
    (List.range count).flatMap (fun n => window ranking (n * size) size) =
      (ranking.take depth).take (count * size) := by
  induction count with
  | zero => simp
  | succ count ih =>
    rw [List.range_succ, List.flatMap_append, ih, Nat.succ_mul, List.take_add]
    simp [window]

end Ranking

namespace Search

/-- The hits on a page of a search. -/
def hitsOn (config : Config) (catalog : Catalog) (params : SearchParams) (number : Nat) :
    List Hit :=
  match run config catalog { params with page := number } with
  | .ok (.results shown) => shown.hits
  | _ => []

theorem answered_page {config : Config} {catalog : Catalog} {params : SearchParams}
    {selection : List DocumentType} {compiled : Compiled} {found : Hits} {ranking : List Hit}
    (answered : Answered config catalog params selection compiled found)
    (cuts : catalog.Cuts compiled.plan (selection.map (·.name))
      (params.sort.bind (YearOrder.resolve selection)) ranking) (number : Nat) :
    Answered config catalog { params with page := number } selection compiled
      ⟨ranking.length,
        Ranking.window ranking ((max number 1 - 1) * config.pageSize) config.pageSize⟩ := by
  have known : catalog.unknownColumn compiled.plan = none := by
    cases missing : catalog.unknownColumn compiled.plan with
    | none => rfl
    | some name =>
      have refused := answered.found
      rw [Catalog.retrieve_unknown missing] at refused
      cases refused
  refine ⟨answered.selected, answered.made, ?_⟩
  rw [← Ranking.window_saturated]
  have shown := cuts (Word.mul (max number 1 - 1) config.pageSize) config.pageSize
  rw [known] at shown
  exact shown

theorem hitsOn_eq {config : Config} {catalog : Catalog} {params : SearchParams} {number : Nat}
    {selection : List DocumentType} {compiled : Compiled} {found : Hits}
    (answered : Answered config catalog { params with page := number } selection compiled found) :
    hitsOn config catalog params number = found.hits := by
  rw [hitsOn, run_of_answered answered]
  rfl

/-- What turning the pages of a search shows, if this is the ranking behind it. -/
structure Pages (config : Config) (catalog : Catalog) (params : SearchParams)
    (ranking : List Hit) : Prop where
  each : ∀ number, ∃ shown, run config catalog { params with page := number } = .ok (.results shown) ∧
    shown.total = ranking.length ∧
    shown.hits = Ranking.window ranking ((max number 1 - 1) * config.pageSize) config.pageSize
  together : (List.range' 1 (Paging.pageCount ranking.length config.pageSize)).flatMap
    (hitsOn config catalog params) = ranking.take (min ranking.length Ranking.depth)
  behind : ∀ number, Paging.pageCount ranking.length config.pageSize < number →
    hitsOn config catalog params number = []

theorem pages_of_cuts {config : Config} {catalog : Catalog} {params : SearchParams}
    {selection : List DocumentType} {compiled : Compiled} {found : Hits} {ranking : List Hit}
    (room : 1 ≤ config.pageSize)
    (answered : Answered config catalog params selection compiled found)
    (cuts : catalog.Cuts compiled.plan (selection.map (·.name))
      (params.sort.bind (YearOrder.resolve selection)) ranking) :
    Pages config catalog params ranking := by
  have all := Paging.le_pageCount_mul ranking.length room
  have hits : ∀ number, hitsOn config catalog params number =
      Ranking.window ranking ((max number 1 - 1) * config.pageSize) config.pageSize :=
    fun number => hitsOn_eq (answered_page answered cuts number)
  constructor
  case each =>
    intro number
    exact ⟨_, run_of_answered (answered_page answered cuts number), rfl, rfl⟩
  case together =>
    -- the pages up to the last are windows side by side that reach the end of the ranking
    have numbered : ∀ n, hitsOn config catalog params (1 + n) =
        Ranking.window ranking (n * config.pageSize) config.pageSize := by
      intro n
      have place : max (1 + n) 1 - 1 = n := by omega
      rw [hits, place]
    have whole : (ranking.take Ranking.depth).length ≤
        Paging.pageCount ranking.length config.pageSize * config.pageSize := by
      rw [List.length_take]
      omega
    rw [List.range'_eq_map_range, List.flatMap_map]
    simp only [numbered, Ranking.windows_join, List.take_of_length_le whole]
    rw [Nat.min_comm, ← List.take_take, List.take_length]
  case behind =>
    intro number later
    rw [hits]
    apply Ranking.window_nil
    have turned := Nat.mul_le_mul_right config.pageSize (Nat.le_sub_one_of_lt later)
    have place : max number 1 - 1 = number - 1 := by omega
    rw [place]
    omega

-- Two accounts, the first of them without a year, the second of the last year there is.
def ledger : DocumentType :=
  { name := "kasboek".toList
    title := none
    fields := [⟨"naam".toList, some 1⟩]
    sortColumns := .empty
    yearSource := none }

def account (id : String) (year : Option Int) : Session.Step :=
  .add ⟨id.toList, ledger.name, year, Dict.empty.insert "naam".toList "jan".toList⟩

def accounts : Catalog :=
  Session.after (.create ⟨[ledger]⟩)
    [account "1" none, account "2" (some Word.highestSigned), .commit]

def compiledJan : Compiled :=
  ⟨⟨[[.one (.fuzzy "jan".toList (Selection.weightedFields [ledger]))]], none⟩,
    .ofList ["jan".toList]⟩

theorem ledger_reachable (steps : List Session.Step) :
    (Session.after (.create ⟨[ledger]⟩) steps).Reachable :=
  Session.reachable_after (.create (show Collection.ofTypes [ledger] = .ok ⟨[ledger]⟩ from rfl)) _

def ledgerConfig : Config := ⟨1, 5, [], ⟨[ledger]⟩⟩

def byYear : SearchParams := ⟨"Jan".toList, [], some "jaar".toList, 1⟩

-- The same two, committed one after the other. The library has put their segments together.
def apart : Catalog :=
  Session.after (.create ⟨[ledger]⟩)
    [account "1" none, .commit, account "2" (some Word.highestSigned), .commit]

def segmentOf (id : String) (year : Option Int) : Segment :=
  .ofCards (Collection.columns ⟨[ledger]⟩)
    [⟨id.toList, ledger.name, year, Dict.empty.insert "naam".toList "jan".toList⟩]

def joined : Catalog :=
  { apart with
    store := ⟨apart.store.columns,
      [(segmentOf "1" none).merge (segmentOf "2" (some Word.highestSigned))]⟩ }

theorem merging_joined : Upkeep.Merging apart.store joined.store :=
  @Upkeep.Merging.neighbours _ [] [] _ _

end Search

end CardCatalog
