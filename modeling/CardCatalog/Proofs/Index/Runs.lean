import CardCatalog.Index.Analysis
import CardCatalog.Proofs.Text.Case
import CardCatalog.Proofs.Text.Parted

/-!
The runs of a text are the pieces between the characters that are neither letters
nor numbers. So they do not depend on the blanks around them, lower case goes
through to them, and a text that is cut between two runs has the runs of its parts.
-/

namespace CardCatalog

namespace Analysis

def isGap (c : Char) : Bool := !Text.isAlphanumeric c

theorem parted_tail {t : Text} (gap : ∀ c, t.head? = some c → isGap c = true) :
    Text.parted isGap t = (Text.splitOn isGap t).tail.filter (!·.isEmpty) := by
  cases t with
  | nil => rfl
  | cons c rest => simp [Text.parted, Text.splitOn, gap c rfl]

theorem runs_behind (count : Nat) (before : Option Char) (t : Text) :
    Scan.values (Scan.behind findRun count before t) = Text.parted isGap (t.drop count) := by
  induction t generalizing count before with
  | nil => simp [Scan.behind, Scan.values, Text.parted, Text.splitOn]
  | cons c rest ih =>
    cases count with
    | succ inside => exact ih inside (some c)
    | zero =>
      cases letter : Text.isAlphanumeric c with
      | false =>
        have loose : Scan.behind findRun 0 before (c :: rest) =
            .loose c :: Scan.behind findRun 0 (some c) rest := by
          simp [Scan.behind, findRun, letter]
        rw [loose, List.drop_zero, Text.parted_cons (by simp [isGap, letter])]
        exact ih 0 (some c)
      | true =>
        have token : Scan.behind findRun 0 before (c :: rest) =
            .token (c :: rest.takeWhile Text.isAlphanumeric)
              (c :: rest.take (rest.takeWhile Text.isAlphanumeric).length) ::
              Scan.behind findRun (rest.takeWhile Text.isAlphanumeric).length (some c) rest := by
          simp [Scan.behind, findRun, letter]
        have tail := ih (rest.takeWhile Text.isAlphanumeric).length (some c)
        -- the run is as long as it can be, so a gap closes it
        have stops : ∀ d, (rest.dropWhile Text.isAlphanumeric).head? = some d → isGap d = true := by
          intro d head
          have outside := List.head?_dropWhile_not Text.isAlphanumeric rest
          rw [head] at outside
          simpa [isGap] using outside
        have whole := Text.splitOn_takeWhile isGap (c :: rest)
        rw [token, Scan.values, List.filterMap_cons, Piece.value?, ← Scan.values, tail,
          Text.drop_takeWhile, parted_tail stops, List.drop_zero, Text.parted, whole]
        simp [isGap, letter]

theorem runs_eq (t : Text) : runs t = Text.parted isGap t := runs_behind 0 none t

theorem runs_nil : runs [] = [] := rfl

theorem runs_words (t : Text) : runs t = (Text.words t).flatMap runs := by
  have gap : ∀ c, Text.isBlank c = true → isGap c = true := by
    intro c blank
    simp [isGap, Text.isAlphanumeric_of_blank blank]
  have each : runs = Text.parted isGap := funext runs_eq
  rw [each]
  exact Text.parted_refine gap t

theorem runs_of_words {t u : Text} (same : Text.words t = Text.words u) : runs t = runs u := by
  rw [runs_words t, same, ← runs_words]

/-- No run reaches from the one text into the other. -/
def Apart (left right : Text) : Prop :=
  ∀ c ∈ left.getLast?, ∀ d ∈ right.head?,
    Text.isAlphanumeric c = false ∨ Text.isAlphanumeric d = false

theorem runs_gap {c : Char} (gap : isGap c = true) (left right : Text) :
    runs (left ++ c :: right) = runs left ++ runs right := by
  simp only [runs_eq, Text.parted_separator gap]

theorem runs_append {left right : Text} (apart : Apart left right) :
    runs (left ++ right) = runs left ++ runs right := by
  simp only [runs_eq]
  apply Text.parted_append
  intro c last d head
  exact (apart c last d head).imp (by simp +contextual [isGap]) (by simp +contextual [isGap])

theorem slots_append {left right : Text} (apart : Apart left right) :
    slots (left ++ right) = slots left ++ slots right := by
  rw [slots, runs_append apart, List.map_append]
  rfl

theorem runs_map {f : Char → Char}
    (same : ∀ c, Text.isAlphanumeric (f c) = Text.isAlphanumeric c) (t : Text) :
    runs (t.map f) = (runs t).map (·.map f) := by
  have gap : ∀ c, isGap (f c) = isGap c := by simp [isGap, same]
  simp only [runs_eq, Text.parted_map gap]

theorem mem_runs {t run : Text} (member : run ∈ runs t) :
    run ≠ [] ∧ ∀ c ∈ run, c ∈ t ∧ Text.isAlphanumeric c = true := by
  rw [runs_eq, Text.mem_parted] at member
  obtain ⟨some, solid, before, after, rfl, _⟩ := member
  refine ⟨some, fun c inside => ⟨by simp [inside], ?_⟩⟩
  simpa [isGap] using solid c inside

theorem mem_terms {t k : Text} :
    k ∈ terms t ↔ ∃ run ∈ runs t, isKept run = true ∧ term run = k := by
  simp [terms, List.mem_map, List.mem_filter, and_assoc]

/-- A text that becomes the same terms whether it is put into lower case at once or
run by run, and these without a gap between them: no capital sigma ends a word, the
dotted capital I is not there, lower case makes no run too long or short enough, and
what is too long does not stand between others. -/
structure Verbatim (t : Text) : Prop where
  undotted : 'İ' ∉ t
  sigma : Text.lower t = Text.lowerEach t
  lengths : ∀ run ∈ runs t, isKept (Text.lowerEach run) = isKept run
  gapless : ∃ lead kept trail, runs t = lead ++ kept ++ trail ∧
    (∀ run ∈ lead ++ trail, isKept run = false) ∧ ∀ run ∈ kept, isKept run = true

theorem lower_eq_map {t : Text} (verbatim : Verbatim t) : Text.lower t = t.map Text.small :=
  verbatim.sigma.trans (Text.lowerEach_eq_map verbatim.undotted)

/-- Lower case before the analysis changes nothing. -/
theorem terms_of_lower {t v : Text} (verbatim : Verbatim t)
    (same : runs v = runs (Text.lower t)) : terms v = terms t := by
  have undotted : ∀ run ∈ runs t, 'İ' ∉ run := fun run member inside =>
    verbatim.undotted ((mem_runs member).2 _ inside).1
  have small : ∀ run ∈ runs t, Text.lowerEach run = run.map Text.small :=
    fun run member => Text.lowerEach_eq_map (undotted run member)
  have kept : ∀ run ∈ runs t, isKept (run.map Text.small) = isKept run := by
    intro run member
    rw [← small run member]
    exact verbatim.lengths run member
  have again : ∀ run ∈ runs t, term (run.map Text.small) = term run := by
    intro run member
    have clear : 'İ' ∉ run.map Text.small := by
      intro inside
      obtain ⟨c, among, dotted⟩ := List.mem_map.mp inside
      exact undotted run member (Text.dotted_of_small dotted ▸ among)
    rw [term, term, Text.lowerEach_eq_map clear, small run member, List.map_map]
    exact List.map_congr_left fun c _ => Text.small_small c
  have filtered : (runs t).filter (isKept ∘ fun run => run.map Text.small) =
      (runs t).filter isKept := List.filter_congr kept
  rw [terms, terms, same, lower_eq_map verbatim, runs_map Text.isAlphanumeric_small,
    List.filter_map, List.map_map, filtered]
  apply List.map_congr_left
  intro run member
  exact again run (List.mem_filter.mp member).1

theorem terms_infix_slots {t : Text} (verbatim : Verbatim t) :
    (terms t).map some <:+: slots t := by
  obtain ⟨lead, kept, trail, shape, long, short⟩ := verbatim.gapless
  have none : ∀ part : List Text, (∀ run ∈ part, run ∈ lead ++ trail) → part.filter isKept = [] := by
    intro part inside
    rw [List.filter_eq_nil_iff]
    intro run member
    simp [long run (inside run member)]
  have all : kept.filter isKept = kept := List.filter_eq_self.mpr short
  have asked : terms t = kept.map term := by
    rw [terms, shape, List.filter_append, List.filter_append, none lead (by simp +contextual),
      none trail (by simp +contextual), all]
    simp
  have middle : kept.map (fun run => if isKept run then some (term run) else Option.none) =
      (kept.map term).map some := by
    rw [List.map_map]
    apply List.map_congr_left
    intro run member
    rw [if_pos (short run member)]
    rfl
  rw [asked, slots, shape, List.map_append, List.map_append, middle]
  exact List.infix_append _ _ _

end Analysis

end CardCatalog
