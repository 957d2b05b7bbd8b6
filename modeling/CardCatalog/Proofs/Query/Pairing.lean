import CardCatalog.Proofs.Query.WellFormed

/-!
Free text, read in two steps. First the quotes of a text are paired from left to right,
over the whole of it; then the reference numbers are read outside of the pairs, each as
early and as far as one stands there. The scan reads both in one pass and comes to the
same, since no number has a quote in it. What it leaves over is words and nothing else
when it is read again.
-/

namespace CardCatalog

/-- How one would write a query for the leaf alone. -/
def Leaf.written : Leaf → Text
  | field name value => name ++ ':' :: Query.Item.quoted value
  | phrase text _ => Query.Item.quoted text
  | fuzzy text _ => text

namespace Phrase

open Query (Reference gap reference_append reference_eq_none reference_eq_some)
open Query.Item (quoted)
open Scope (Unquoted)

/-- What lies between two pairs of quotes, and what a pair holds. -/
inductive Stretch where
  | outside (t : Text)
  | quotation (t : Text)
  deriving DecidableEq

/-- The pieces between the quotes of a text as stretches of it. The last quote of an odd
number has no partner, and stays where it is. -/
def paired : List Text → List Stretch
  | before :: inside :: behind :: rest =>
    .outside before :: .quotation inside :: paired (behind :: rest)
  | [before, behind] => [.outside (before ++ '"' :: behind)]
  | [whole] => [.outside whole]
  | [] => []

inductive Part where
  | words (t : Text)
  | quotation (t : Text)
  | number (n : Text) (reference : Reference n)

/-- The numbers of a text and what is between them: the first one that begins in it, as far
as it reaches, and those behind it. -/
inductive Numbered : Text → List Part → Prop where
  | none {t : Text} (absent : ∀ m, Reference m → ¬ m <:+: t) : Numbered t [.words t]
  | next {before n after : Text} {parts : List Part} (reference : Reference n)
      (earliest : ∀ u m, u.length < before.length → Reference m → ¬ u ++ m <+: before ++ n ++ after)
      (longest : ∀ m, Reference m → m <+: n ++ after → m.length ≤ n.length)
      (rest : Numbered after parts) :
      Numbered (before ++ n ++ after) (.words before :: .number n reference :: parts)

inductive Composed : List Stretch → List Part → Prop where
  | done : Composed [] []
  | outside {t : Text} {more : List Stretch} {front parts : List Part}
      (numbered : Numbered t front) (rest : Composed more parts) :
      Composed (.outside t :: more) (front ++ parts)
  | quotation {t : Text} {more : List Stretch} {parts : List Part} (rest : Composed more parts) :
      Composed (.quotation t :: more) (.quotation t :: parts)

/-- The parts of a text: its quotes are paired first, its numbers are found afterwards. -/
def Reading (t : Text) (parts : List Part) : Prop :=
  Composed (paired (Text.splitOn Text.isQuote t)) parts

namespace Part

def phrase? : Part → Option Text
  | words _ => none
  | quotation t => if Text.trim t = [] then none else some (Text.trim t)
  | number n _ => some n

/-- What remains of the text: a space for what is taken out. -/
def left : Part → Text
  | words t => t
  | quotation _ => [' ']
  | number _ _ => [' ']

def pieces : Part → List (Piece Text)
  | words t => t.map .loose
  | quotation t => [.token (Text.trim t) (quoted t)]
  | number n _ => [.token n n]

end Part

/-- One leaf for every phrase in its place, and behind them one for the words. -/
def leavesOf (weighted : List WeightedField) (parts : List Part) : List Leaf :=
  let rest := Text.collapse (parts.flatMap Part.left)
  (parts.filterMap Part.phrase?).map (.phrase · weighted) ++
    if rest.any Text.isAlphanumeric then [.fuzzy rest weighted] else []

theorem leaves_of_pieces {t : Text} {parts : List Part}
    (read : Scan.pieces find t = parts.flatMap Part.pieces) (weighted : List WeightedField) :
    leaves weighted t = leavesOf weighted parts := by
  have phrased (part : Part) :
      (Scan.values part.pieces).filter (!·.isEmpty) = part.phrase?.toList := by
    cases part with
    | words w =>
      rw [Part.pieces, Scan.values_loose]
      rfl
    | quotation w =>
      by_cases blank : Text.trim w = [] <;>
        simp [Part.pieces, Part.phrase?, Scan.values, Piece.value?, blank]
    | number n reference =>
      simp [Part.pieces, Part.phrase?, Scan.values, Piece.value?,
        (Query.reference_numeral reference).1]
  have remains (part : Part) : part.pieces.flatMap gap = part.left := by
    cases part with
    | words w => simp [Part.pieces, Part.left, List.flatMap_map, gap]
    | quotation w => rfl
    | number n reference => rfl
  have values : (phrases t).filter (!·.isEmpty) = parts.filterMap Part.phrase? := by
    rw [phrases, read, Scan.values, List.filterMap_flatMap, List.filter_flatMap,
      List.filterMap_eq_flatMap_toList]
    exact congrArg (parts.flatMap ·) (funext phrased)
  have rest : loose t = Text.collapse (parts.flatMap Part.left) := by
    rw [loose, leftover_eq, read, List.flatMap_assoc, funext remains]
  rw [leaves_eq, values, rest]
  rfl

/-- No quote in the text opens a quotation in front of the other text. -/
def Unopened : Text → Text → Prop
  | [], _ => True
  | c :: x, r => (Text.isQuote c = false ∨ Unquoted (x ++ r)) ∧ Unopened x r

section Unopened

variable {x y r : Text}

theorem unopened_of_unquoted (free : Unquoted x) (r : Text) : Unopened x r := by
  induction x with
  | nil => trivial
  | cons c x ih =>
    have here := free c List.mem_cons_self
    exact ⟨.inl here, ih fun d member => free d (List.mem_cons_of_mem c member)⟩

theorem unopened_of_count (few : x.countP Text.isQuote ≤ 1) : Unopened x [] := by
  induction x with
  | nil => trivial
  | cons c x ih =>
    rw [List.countP_cons] at few
    refine ⟨?_, ih (by omega)⟩
    cases quote : Text.isQuote c with
    | false => exact .inl rfl
    | true =>
      have none : x.countP Text.isQuote = 0 := by
        rw [quote, if_pos rfl] at few
        omega
      refine .inr fun d member => ?_
      rw [List.append_nil] at member
      simpa using List.countP_eq_zero.mp none d member

theorem unopened_append : Unopened (x ++ y) r ↔ Unopened x (y ++ r) ∧ Unopened y r := by
  induction x with
  | nil => simp [Unopened]
  | cons c x ih => rw [List.cons_append, Unopened, Unopened, ih, List.append_assoc, and_assoc]

end Unopened

section Reads

variable {s x r : Text} {ps : List (Piece Text)} {parts : List Part}

theorem reads_passed (unopened : Unopened x r)
    (unread : ∀ y, y ≠ [] → y <:+ x → reference? (y ++ r) = none) (rest : Reads r ps) :
    Reads (x ++ r) (x.map .loose ++ ps) := by
  induction x with
  | nil => exact rest
  | cons c x ih =>
    have later := ih unopened.2 fun y filled ends =>
      unread y filled (ends.trans (List.suffix_cons c x))
    exact .loose unopened.1 (unread (c :: x) (by simp) List.suffix_rfl) later

-- No number reaches over the quote behind a stretch, so its numbers are those of the stretch.
theorem reads_numbered (numbered : Numbered s parts) (unopened : Unopened s r)
    (stop : ∀ c ∈ r.head?, Text.isQuote c = true) (rest : Reads r ps) :
    Reads (s ++ r) (parts.flatMap Part.pieces ++ ps) := by
  have ends : ∀ c ∈ r.head?, ¬ (Text.isDigit c = true ∨ c = '-') := by
    intro c head numeral
    have quote := stop c head
    rw [(Query.numeral_solid numeral).2.1] at quote
    cases quote
  -- what stands behind the stretch stays as it is, the stretch is cut behind its first number
  induction numbered with
  | @none t absent =>
    have passed := reads_passed unopened (fun y _ ⟨u, split⟩ => ?_) rest
    · simpa [Part.pieces] using passed
    · rw [reference_append ends, reference_eq_none]
      intro m reference start
      exact absent m reference (start.isInfix.trans ⟨u, [], by simpa using split⟩)
  | @next before n after parts reference earliest longest _ ih =>
    obtain ⟨opening, tail⟩ := unopened_append.mp unopened
    have later := ih tail
    have read : reference? (n ++ (after ++ r)) = some n := by
      rw [← List.append_assoc, reference_append ends, reference_eq_some]
      exact ⟨reference, List.prefix_append n after, longest⟩
    have whole := reads_passed (unopened_append.mp opening).1 (fun y filled ⟨u, split⟩ => ?_)
      (Reads.number read later)
    · simpa [Part.pieces] using whole
    · have shorter : u.length < before.length := by
        have := List.length_pos_of_ne_nil filled
        rw [← split, List.length_append]
        omega
      have shape : y ++ (n ++ (after ++ r)) = (y ++ n ++ after) ++ r := by simp
      rw [shape, reference_append ends, reference_eq_none]
      intro m other start
      apply earliest u m shorter other
      rw [← split, List.append_assoc, List.append_assoc, ← List.append_assoc y]
      exact (List.prefix_append_right_inj u).mpr start

theorem reads_composed {texts : List Text} (some : texts ≠ []) (free : ∀ t ∈ texts, Unquoted t)
    (composed : Composed (paired texts) parts) :
    Reads (Text.joined ['"'] texts) (parts.flatMap Part.pieces) := by
  induction texts using paired.induct generalizing parts with
  | case1 before inside behind rest ih =>
    rw [paired] at composed
    obtain _ | ⟨numbered, between⟩ := composed
    obtain _ | _ | later := between
    have tail := ih (by simp) (fun t listed => free t (by simp [listed])) later
    have read := reads_numbered numbered (unopened_of_unquoted (free before (by simp)) _)
      (by simp [Text.isQuote]) (Reads.quotation (free inside (by simp)) tail)
    simpa [Text.joined_cons_cons, Part.pieces, quoted] using read
  | case2 before behind =>
    rw [paired] at composed
    obtain _ | ⟨numbered, rest⟩ := composed
    cases rest
    have few : (before ++ '"' :: behind).countP Text.isQuote ≤ 1 := by
      rw [List.countP_append, List.countP_cons, Scope.countP_unquoted (free before (by simp)),
        Scope.countP_unquoted (free behind (by simp))]
      decide
    have read := reads_numbered numbered (unopened_of_count few) (by simp) .done
    simpa [Text.joined] using read
  | case3 whole =>
    rw [paired] at composed
    obtain _ | ⟨numbered, rest⟩ := composed
    cases rest
    have read := reads_numbered numbered (unopened_of_unquoted (free whole (by simp)) [])
      (by simp) .done
    simpa [Text.joined] using read
  | case4 => exact absurd rfl some

theorem pieces_of_reading {t : Text} (reading : Reading t parts) :
    Scan.pieces find t = parts.flatMap Part.pieces := by
  have read := reads_composed (Text.splitOn_ne_nil _ t) (fun w listed => Text.mem_splitOn listed)
    reading
  rw [Text.joined_splitOn fun c quote => Scope.isQuote_iff.mp quote] at read
  exact pieces_of_reads read

end Reads

section Exists

theorem first_number (t : Text) :
    (∀ m, Reference m → ¬ m <:+: t) ∨
      ∃ before n after, t = before ++ n ++ after ∧ Reference n ∧
        (∀ u m, u.length < before.length → Reference m → ¬ u ++ m <+: before ++ n ++ after) ∧
        ∀ m, Reference m → m <+: n ++ after → m.length ≤ n.length := by
  induction t with
  | nil =>
    refine .inl fun m reference inside => ?_
    exact (Query.reference_numeral reference).1 (List.infix_nil.mp inside)
  | cons c t ih =>
    cases read : reference? (c :: t) with
    | some n =>
      obtain ⟨reference, ⟨after, split⟩, longest⟩ := reference_eq_some.mp read
      rw [← split] at longest
      exact .inr ⟨[], n, after, split.symm, reference, by simp, longest⟩
    | none =>
      have nothing := reference_eq_none.mp read
      rcases ih with absent | ⟨before, n, after, rfl, reference, earliest, longest⟩
      · refine .inl fun m reference inside => ?_
        rcases List.infix_cons_iff.mp inside with here | later
        · exact nothing m reference here
        · exact absent m reference later
      · refine .inr ⟨c :: before, n, after, rfl, reference, fun u m early other start => ?_, longest⟩
        cases u with
        | nil => exact nothing m other start
        | cons d u =>
          have shorter := Nat.lt_of_succ_lt_succ early
          exact earliest u m shorter other (List.cons_prefix_cons.mp start).2

theorem exists_numbered (t : Text) : ∃ parts, Numbered t parts := by
  induction size : t.length using Nat.strongRecOn generalizing t with
  | ind k ih =>
    subst size
    rcases first_number t with absent | ⟨before, n, after, rfl, reference, earliest, longest⟩
    · exact ⟨_, .none absent⟩
    · have filled := List.length_pos_of_ne_nil (Query.reference_numeral reference).1
      obtain ⟨parts, rest⟩ := ih after.length (by simp; omega) after rfl
      exact ⟨_, .next reference earliest longest rest⟩

theorem exists_reading (t : Text) : ∃ parts, Reading t parts := by
  have composed (stretches : List Stretch) : ∃ parts, Composed stretches parts := by
    induction stretches with
    | nil => exact ⟨[], .done⟩
    | cons stretch more ih =>
      obtain ⟨parts, rest⟩ := ih
      cases stretch with
      | outside w =>
        obtain ⟨front, numbered⟩ := exists_numbered w
        exact ⟨_, .outside numbered rest⟩
      | quotation w => exact ⟨_, .quotation rest⟩
  exact composed _

end Exists

section Again

variable {weighted : List WeightedField} {t : Text}

theorem pieces_words (quotes : t.countP Text.isQuote ≤ 1)
    (numberless : ∀ a b, Text.isDigit a = true → Text.isDigit b = true → ¬ [a, '-', b] <:+: t) :
    Scan.pieces find t = t.map .loose := by
  have read := reads_passed (unopened_of_count quotes) (fun y _ ends => ?_) .done
  · rw [List.append_nil, List.append_nil] at read
    exact pieces_of_reads read
  · rw [List.append_nil, reference_eq_none]
    intro m reference start
    obtain ⟨a, b, first, second, within⟩ := Query.dash_of_reference reference
    exact numberless a b first second (within.trans (start.isInfix.trans ends.isInfix))

theorem compile_written {leaf : Leaf} (member : leaf ∈ leaves weighted t) :
    compile weighted leaf.written = some (.one leaf) := by
  have formed := @wellFormed_of_leaves t ⟨[], weighted⟩ leaf member
  cases formed with
  | field listed => cases listed
  | @phrase text filled trimmed unquoted =>
    have asked := Query.compile_quoted unquoted weighted (by rwa [trimmed])
    rwa [trimmed] at asked
  | @fuzzy text single lettered quotes numberless =>
    have read : Scan.pieces find text = [Part.words text].flatMap Part.pieces := by
      rw [pieces_words quotes numberless, List.flatMap_singleton, Part.pieces]
    have rest : Text.collapse ([Part.words text].flatMap Part.left) = text := by
      rw [List.flatMap_singleton, Part.left, single]
    have asks : leaves weighted text = [.fuzzy text weighted] := by
      rw [leaves_of_pieces read, leavesOf, rest, if_pos (List.any_eq_true.mpr lettered)]
      rfl
    rw [Leaf.written, compile, asks]
    rfl

end Again

/-- The leaves of a text are those of its reading, and each of them stands for itself. -/
theorem compile_reading (weighted : List WeightedField) (t : Text) :
    (∃ parts, Reading t parts) ∧ ∀ parts, Reading t parts →
      (compile weighted t = match leavesOf weighted parts with
        | [] => none
        | [leaf] => some (.one leaf)
        | several => some (.all several)) ∧
      ∀ leaf ∈ leavesOf weighted parts, compile weighted leaf.written = some (.one leaf) := by
  refine ⟨exists_reading t, fun parts reading => ?_⟩
  rw [← leaves_of_pieces (pieces_of_reading reading) weighted]
  constructor
  · exact Clause.ofLeaves.eq_def (leaves weighted t)
  · exact fun leaf member => compile_written member

def gluedText : Text := "12-3-45-6\"de  smit\" x\"".toList

theorem read_glued : reference? "12-3-45-6".toList = some "12-3-45".toList := by decide +kernel

def gluedParts : List Part :=
  [.words [], .number "12-3-45".toList (reference_eq_some.mp read_glued).1, .words "-6".toList,
    .quotation "de  smit".toList, .words " x\"".toList]

theorem compile_reading_glued :
    Reading gluedText gluedParts ∧ compile [] gluedText = some (.all (leavesOf [] gluedParts)) ∧
      leavesOf [] gluedParts = [.phrase "12-3-45".toList [], .phrase "de  smit".toList [],
        .fuzzy "-6 x\"".toList []] ∧
      ∀ leaf ∈ leavesOf [] gluedParts, compile [] leaf.written = some (.one leaf) := by
  have nothing {t : Text} (unread : ∀ k ≤ t.length, reference? (t.drop k) = none) :
      ∀ m, Reference m → ¬ m <:+: t := by
    rintro m reference ⟨u, r, rfl⟩
    refine reference_eq_none.mp (unread u.length (by simp)) m reference ?_
    simp
  have cut : paired (Text.splitOn Text.isQuote gluedText) = [.outside "12-3-45-6".toList,
      .quotation "de  smit".toList, .outside " x\"".toList] := by
    decide +kernel
  obtain ⟨reference, _, longest⟩ := reference_eq_some.mp read_glued
  have numbered : Numbered "12-3-45-6".toList
      [.words [], .number "12-3-45".toList reference, .words "-6".toList] :=
    @Numbered.next [] "12-3-45".toList "-6".toList _ reference (by simp) longest
      (.none (nothing (by decide +kernel)))
  have last : Numbered " x\"".toList [.words " x\"".toList] :=
    .none (nothing (by decide +kernel))
  have reading : Reading gluedText gluedParts := by
    rw [Reading, cut]
    exact .outside numbered (.quotation (.outside last .done))
  have leaves : leavesOf [] gluedParts = [.phrase "12-3-45".toList [], .phrase "de  smit".toList [],
      .fuzzy "-6 x\"".toList []] := by
    rfl
  obtain ⟨asked, again⟩ := (compile_reading [] gluedText).2 gluedParts reading
  rw [leaves] at asked
  exact ⟨reading, leaves ▸ asked, leaves, again⟩

end Phrase

end CardCatalog
