import Mathlib.Data.List.Basic
import Mathlib.Data.List.TakeWhile
import CardCatalog.Proofs.Query.Item
import CardCatalog.Proofs.Query.Reading

/-!
Taking the scopes out of a written segment. Each scope is read as one token, with
the space before it; a phrase is a quotation, which hides what it holds; words
and numbers are passed over character by character.
-/

namespace CardCatalog

namespace Query

open Scope (Mark Opens Plain Unquoted nameAt rawValue)

section Names

variable {known : List Text} {t w r name : Text} {c : Char}

theorem plain_of_nameable (names : ∀ n ∈ known, Nameable n) : ∀ n ∈ known, Plain n := by
  intro n listed
  obtain ⟨filled, clean⟩ := names n listed
  exact ⟨filled, fun c member => ⟨(clean c member).1, (clean c member).2.1⟩⟩

theorem colon_free (names : ∀ n ∈ known, Nameable n) :
    ∀ n ∈ Scope.everyField :: known, ':' ∉ n := by
  intro n listed
  rcases List.mem_cons.mp listed with rfl | inside
  · decide
  · intro colon
    exact ((names n inside).2 ':' colon).2.2.1 rfl

theorem nameAt_nameless (names : ∀ n ∈ known, Nameable n)
    (nameless : ∀ n ∈ Scope.everyField :: known, ¬ n ++ [':'] <+: w) (ends : Scan.Ends r) :
    nameAt known (w ++ r) = none := by
  apply Scope.nameAt_eq_none.mpr
  intro n listed
  cases fit : Scope.fits (w ++ r) n with
  | false => rfl
  | true =>
    obtain ⟨_, start⟩ := Scope.fits_iff.mp fit
    have plain := Scope.plain_of_mem (plain_of_nameable names) listed
    have solid : ' ' ∉ n ++ [':'] := by
      intro member
      rcases List.mem_append.mp member with inside | colon
      · have blank := (plain.2 ' ' inside).1
        rw [Text.space_blank] at blank
        cases blank
      · exact absurd (List.mem_singleton.mp colon) (by decide)
    exact absurd (Scan.prefix_of_ends ends solid start) (nameless n listed)

/-- Names have no colon, so the first colon tells which one is meant. -/
theorem nameAt_colon (colonless : ∀ n ∈ Scope.everyField :: known, ':' ∉ n)
    (among : name ∈ Scope.everyField :: known) (filled : name ≠ []) :
    nameAt known (name ++ ':' :: t) = some name := by
  have fit : Scope.fits (name ++ ':' :: t) name = true :=
    Scope.fits_iff.mpr ⟨filled, ⟨t, by simp⟩⟩
  apply Scope.nameAt_eq_some.mpr
  refine ⟨among, fit, fun n other fits => ?_⟩
  obtain ⟨_, start⟩ := Scope.fits_iff.mp fits
  have before : n <+: name := by
    apply Scan.prefix_before (colonless n other)
    exact (List.prefix_append n [':']).trans start
  exact before.length_le

theorem nameAt_scope (names : ∀ n ∈ known, Nameable n) (listed : name ∈ known) :
    nameAt known (name ++ ':' :: t) = some name :=
  nameAt_colon (colon_free names) (List.mem_cons_of_mem _ listed) (names name listed).1

end Names

section Behind

variable {known : List Text} {u lead t w r : Text}

theorem behind_solid (solid : ∀ c ∈ w, Text.isBlank c = false ∧ Text.isQuote c = false)
    (nameless : u = [] → nameAt known (w ++ r) = none) :
    Scan.behind (Scope.find known) 0 u.getLast? (w ++ r) =
      w.map .loose ++ Scan.behind (Scope.find known) 0 (u ++ w).getLast? r := by
  induction w generalizing u with
  | nil => simp
  | cons c rest ih =>
    obtain ⟨solidHead, free⟩ := solid c (by simp)
    have nothing : Scope.find known u.getLast? (c :: (rest ++ r)) = none := by
      apply Scope.find_eq_none (.inl free) nameless
      intro blank
      rw [solidHead] at blank
      cases blank
    have tail := @ih (u ++ [c]) (fun d member => solid d (List.mem_cons_of_mem c member)) (by simp)
    rw [List.cons_append, Scan.behind_loose nothing, tail]
    simp

theorem behind_lead (names : ∀ n ∈ known, Nameable n) (opens : Opens u lead)
    (nameless : nameAt known t = none) :
    Scan.behind (Scope.find known) 0 u.getLast? (lead ++ t) =
      lead.map .loose ++ Scan.behind (Scope.find known) 0 (u ++ lead).getLast? t := by
  cases opens with
  | start => simp
  | @blank u b isOne =>
    have nothing : Scope.find known u.getLast? (b :: t) = none := by
      apply Scope.find_eq_none (.inl (Scope.not_quote_of_blank isOne))
      · intro _
        exact Scope.nameAt_blocked (plain_of_nameable names) (.inl isOne)
      · intro _
        exact nameless
    rw [List.singleton_append, Scan.behind_loose nothing]
    rfl

theorem rawValue_quoted {value : Text} (free : Unquoted value) :
    rawValue (Item.quoted value ++ r) = Item.quoted value := by
  have closed := @Scope.quotation_closed value r free
  have shape : Item.quoted value ++ r = '"' :: value ++ '"' :: r := by simp [Item.quoted]
  rw [rawValue, shape, closed, Option.getD_some, Item.quoted]

theorem rawValue_word (filled : w ≠ [])
    (solid : ∀ c ∈ w, Text.isBlank c = false ∧ Text.isQuote c = false) : rawValue w = w := by
  obtain ⟨c, rest, rfl⟩ := List.exists_cons_of_ne_nil filled
  have unquoted : Scope.quotation? (c :: rest) = none :=
    Scope.quotation_eq_none.mpr (.inl (solid c (by simp)).2)
  rw [rawValue, unquoted, Option.getD_none, List.takeWhile_eq_self_iff]
  intro d member
  simp [solid d member]

theorem pieces_scope {name raw : Text} (names : ∀ n ∈ known, Plain n)
    (colonless : ∀ n ∈ Scope.everyField :: known, ':' ∉ n)
    (among : name ∈ Scope.everyField :: known) (value : rawValue raw = raw) :
    Scan.pieces (Scope.find known) (name ++ ':' :: raw) =
      [.token (.scope name raw) (name ++ ':' :: raw)] := by
  have named : nameAt known (name ++ ':' :: raw ++ []) = some name := by
    rw [List.append_nil]
    exact nameAt_colon colonless among (Scope.plain_of_mem names among).1
  have alone : rawValue (raw ++ []) = raw := by rw [List.append_nil, value]
  have pieces := Scope.pieces_of_reads names (.scope .start named alone (.done _))
  rwa [List.append_nil] at pieces

end Behind

section Inner

theorem inner_quotation {t : Text} (free : Unquoted t) :
    Scope.inner (Item.quoted t) = Text.trim t := by
  have ends : ∀ c ∈ ['"'], Text.isQuote c = true := by simp [Text.isQuote]
  have bare := Text.stripped_around ends free ends
  rw [List.singleton_append] at bare
  rw [Scope.inner, Item.quoted, bare]

theorem inner_word {w : Text} (solid : ∀ c ∈ w, Text.isBlank c = false ∧ Text.isQuote c = false) :
    Scope.inner w = w := by
  rw [Scope.inner, Text.stripped_self fun c member => (solid c member).2, Text.trim,
    Text.stripped_self fun c member => (solid c member).1]

end Inner

/-- The pieces of an item behind its lead, which is a space unless it comes first. -/
def scopePieces (lead : Text) : Item → List (Piece Mark)
  | .scope name value =>
    [.token (.scope name (Item.quoted value)) (lead ++ (name ++ ':' :: Item.quoted value))]
  | .phrase text => lead.map .loose ++ [.token .quotation (Item.quoted text)]
  | i => (lead ++ i.render).map .loose

theorem behind_quoted {known : List Text} {u lead r text : Text}
    (names : ∀ n ∈ known, Nameable n) (quotable : Quotable text) (opens : Opens u lead) :
    Scan.behind (Scope.find known) 0 u.getLast? (lead ++ Item.quoted text ++ r) =
      lead.map .loose ++ [.token .quotation (Item.quoted text)] ++
        Scan.behind (Scope.find known) 0 (u ++ (lead ++ Item.quoted text)).getLast? r := by
  have free : Unquoted text := fun c member => (quotable.clean c member).1
  have closed : Scope.quotation? ('"' :: (text ++ ['"'] ++ r)) = some (Item.quoted text) := by
    simpa [Item.quoted] using @Scope.quotation_closed text r free
  have found := @Scope.find_quotation known _ _ _ (u ++ lead).getLast? closed
  have token := @Scan.behind_token _ (Scope.find known) (u ++ lead) (Item.quoted text) r _
    (by simp [Item.quoted]) found
  have hidden : nameAt known (Item.quoted text ++ r) = none :=
    Scope.nameAt_blocked (plain_of_nameable names) (.inr rfl)
  rw [List.append_assoc, behind_lead names opens hidden, token]
  simp

theorem behind_bare {known : List Text} {u lead r w : Text} (names : ∀ n ∈ known, Nameable n)
    (solid : ∀ c ∈ w, Text.isBlank c = false ∧ Text.isQuote c = false)
    (nameless : ∀ n ∈ Scope.everyField :: known, ¬ n ++ [':'] <+: w) (opens : Opens u lead)
    (ends : Scan.Ends r) :
    Scan.behind (Scope.find known) 0 u.getLast? (lead ++ w ++ r) =
      (lead ++ w).map .loose ++
        Scan.behind (Scope.find known) 0 (u ++ (lead ++ w)).getLast? r := by
  have none := nameAt_nameless names nameless ends
  rw [List.append_assoc, behind_lead names opens none, behind_solid solid fun _ => none]
  simp

theorem behind_item {known : List Text} {u lead r : Text} {i : Item}
    (names : ∀ n ∈ known, Nameable n) (formed : i.WellFormed known) (lasting : i.years? = none)
    (opens : Opens u lead) (ends : Scan.Ends r) :
    Scan.behind (Scope.find known) 0 u.getLast? (lead ++ i.render ++ r) =
      scopePieces lead i ++
        Scan.behind (Scope.find known) 0 (u ++ (lead ++ i.render)).getLast? r := by
  cases formed with
  | @scope name value listed _ quotable _ _ =>
    apply Scan.behind_token
    · simp [Item.render]
    · have free : Unquoted value := fun c member => (quotable.clean c member).1
      apply Scope.find_scope (plain_of_nameable names) opens _ (rawValue_quoted free)
      rw [List.append_assoc]
      exact nameAt_scope names listed
  | @phrase text quotable _ => exact behind_quoted names quotable opens
  | @number text reference _ =>
    have numeral := (reference_numeral reference).2
    apply behind_bare names _ _ opens ends
    · intro c member
      have solid := numeral_solid (numeral c member)
      exact ⟨solid.1, solid.2.1⟩
    · rintro n _ ⟨rest, same⟩
      have written : n ++ [':'] ++ rest = text := same
      have colon : ':' ∈ text := by
        rw [← written]
        simp
      exact absurd rfl (numeral_solid (numeral ':' colon)).2.2.1
  | @word text bare _ =>
    apply behind_bare names _ bare.nameless opens ends
    intro c member
    exact ⟨(bare.clean c member).1, (bare.clean c member).2.1⟩
  | years _ _ => cases lasting

section Segment

variable {known : List Text} {items : List Item}

theorem emits_scopes {i : Item} (names : ∀ n ∈ known, Nameable n) (formed : i.WellFormed known)
    (lasting : i.years? = none) :
    Scan.Emits (Scope.find known) (' ' :: i.render) (scopePieces [' '] i) := by
  intro u r ends
  exact behind_item names formed lasting (.blank Text.space_blank) ends

def segmentPieces : List Item → List (Piece Mark)
  | [] => []
  | i :: rest => scopePieces [] i ++ rest.flatMap (scopePieces [' '])

theorem pieces_segment (names : ∀ n ∈ known, Nameable n)
    (formed : ∀ i ∈ items, i.WellFormed known) (lasting : ∀ i ∈ items, i.years? = none) :
    Scan.pieces (Scope.find known) (renderSegment items) = segmentPieces items := by
  cases items with
  | nil => rfl
  | cons i rest =>
    have later : Scan.Emits (Scope.find known) (rest.flatMap fun j => ' ' :: j.render)
        (rest.flatMap (scopePieces [' '])) := by
      apply Scan.emits_spaced_out
      intro j member
      exact emits_scopes names (formed j (List.mem_cons_of_mem i member))
        (lasting j (List.mem_cons_of_mem i member))
    have ends : Scan.Ends (rest.flatMap fun j => ' ' :: j.render) := by
      simpa using @Scan.ends_spaced_out _ Item.render rest [] Scan.ends_nil
    have first := behind_item names (formed i (by simp)) (lasting i (by simp)) .start ends
    have tail := later ([] ++ ([] ++ i.render)) [] Scan.ends_nil
    have done (u : Text) : Scan.behind (Scope.find known) 0 u.getLast? [] = [] := rfl
    rw [List.append_nil, done, List.append_nil] at tail
    have flat : renderSegment (i :: rest) =
        [] ++ i.render ++ rest.flatMap fun j => ' ' :: j.render := by
      rw [renderSegment, List.map_cons, Text.joined_cons, List.flatMap_map]
      rfl
    rw [flat, segmentPieces, ← tail]
    exact first

theorem inner_quoted {value : Text} (quotable : Quotable value) :
    Scope.inner (Item.quoted value) = value := by
  rw [inner_quotation fun c member => (quotable.clean c member).1]
  exact Text.trim_single quotable.spaced.single

theorem scopes_pieces {i : Item} (lead : Text) (formed : i.WellFormed known) :
    (Scan.values (scopePieces lead i)).filterMap Scope.scopeOf = i.scope?.toList := by
  cases formed with
  | @scope name value _ other quotable _ _ =>
    have inner := inner_quoted quotable
    simp [scopePieces, Scan.values, Piece.value?, Scope.scopeOf, inner, other,
      quotable.spaced.filled, Item.scope?]
  | phrase _ _ =>
    have none := @Scan.values_loose Mark lead
    rw [Scan.values] at none
    simp [scopePieces, Scan.values, none, Piece.value?, Scope.scopeOf, Item.scope?]
  | _ =>
    rw [scopePieces, Scan.values_loose]
    · rfl
    all_goals simp

def stays (i : Item) : Text := if i.scope?.isNone then i.render else []

theorem leftover_pieces {i : Item} (lead : Text) (formed : i.WellFormed known) :
    (scopePieces lead i).flatMap Scope.leftoverOf =
      if i.scope?.isNone then lead ++ i.render else [' '] := by
  have loose (t : Text) : (t.map .loose).flatMap Scope.leftoverOf = t := by
    simp [List.flatMap_map, Scope.leftoverOf]
  cases formed with
  | scope _ other _ _ _ => simp [scopePieces, Scope.leftoverOf, other, Item.scope?]
  | phrase _ _ =>
    simp [scopePieces, List.flatMap_append, loose, Scope.leftoverOf, Item.scope?, Item.render]
  | _ => exact loose _

theorem words_scopeless (items : List Item) :
    (items.flatMap fun i => Text.words (stays i)) =
      ((scopeless items).map Item.render).flatMap Text.words := by
  induction items with
  | nil => rfl
  | cons i rest ih =>
    rw [List.flatMap_cons, ih, stays, scopeless, scopeless, List.filter_cons]
    cases i.scope? with
    | none => rfl
    | some scope => rfl

theorem scopes_segment (formed : ∀ i ∈ items, i.WellFormed known) :
    (Scan.values (segmentPieces items)).filterMap Scope.scopeOf = items.filterMap Item.scope? := by
  cases items with
  | nil => rfl
  | cons i rest =>
    have first := scopes_pieces [] (formed i (by simp))
    have later :
        (rest.flatMap fun j => (Scan.values (scopePieces [' '] j)).filterMap Scope.scopeOf) =
          rest.flatMap fun j => j.scope?.toList := by
      apply List.flatMap_congr
      intro j member
      exact scopes_pieces [' '] (formed j (List.mem_cons_of_mem i member))
    rw [List.filterMap_eq_flatMap_toList Item.scope?, List.flatMap_cons, ← first, ← later]
    simp [segmentPieces, Scan.values, List.filterMap_append, List.filterMap_flatMap]

theorem words_segment (formed : ∀ i ∈ items, i.WellFormed known) :
    Text.words ((segmentPieces items).flatMap Scope.leftoverOf) =
      ((scopeless items).map Item.render).flatMap Text.words := by
  cases items with
  | nil => rfl
  | cons i rest =>
    have first := leftover_pieces [] (formed i (by simp))
    have later : (rest.flatMap fun j => (scopePieces [' '] j).flatMap Scope.leftoverOf) =
        rest.flatMap fun j => ' ' :: stays j := by
      apply List.flatMap_congr
      intro j member
      rw [leftover_pieces [' '] (formed j (List.mem_cons_of_mem i member)), stays]
      split
      · rfl
      · rfl
    have start : Text.words (if i.scope?.isNone then [] ++ i.render else [' ']) =
        Text.words (stays i) := by
      rw [stays]
      split
      · rfl
      · rfl
    rw [segmentPieces, List.flatMap_append, first, List.flatMap_assoc, later,
      Text.words_spaced_out, start, ← words_scopeless, List.flatMap_cons]

theorem split_segment (names : ∀ n ∈ known, Nameable n)
    (formed : ∀ i ∈ items, i.WellFormed known) (lasting : ∀ i ∈ items, i.years? = none) :
    (Scope.split known (renderSegment items)).scopes = items.filterMap Item.scope? ∧
      (Scope.split known (renderSegment items)).leftover = renderSegment (scopeless items) := by
  have single := segment_single names fun i (member : i ∈ scopeless items) =>
    formed i (List.mem_filter.mp member).1
  rw [Scope.split, pieces_segment names formed lasting]
  constructor
  · exact scopes_segment formed
  · rw [Text.collapse, words_segment formed, ← Text.words_joined_texts, ← renderSegment,
      ← Text.collapse, single]

end Segment

end Query

end CardCatalog
