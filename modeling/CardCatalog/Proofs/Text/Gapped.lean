import CardCatalog.Proofs.Text.Spacing

/-!
Texts in which some stretches are blanked out. One space stands for a stretch, so the
characters on both sides of it do not meet: whatever has no space in it and lies in the
gapped text lay in the text before. Every stage of reading a query leaves such a text.
-/

namespace CardCatalog

namespace Text

/-- The second text is the first one with a space for some of its stretches, which may
be empty. -/
inductive Gapped : Text → Text → Prop where
  | done : Gapped [] []
  | kept {t s : Text} (c : Char) (rest : Gapped t s) : Gapped (c :: t) (c :: s)
  | blanked {t s : Text} (w : Text) (rest : Gapped t s) : Gapped (w ++ t) (' ' :: s)

namespace Gapped

variable {t s m x y : Text} {c : Char}

theorem refl (t : Text) : Gapped t t := by
  induction t with
  | nil => exact .done
  | cons c t ih => exact .kept c ih

theorem append (front : Gapped x y) (back : Gapped t s) : Gapped (x ++ t) (y ++ s) := by
  induction front with
  | done => exact back
  | kept c _ ih => exact .kept c ih
  | blanked w _ ih =>
    rw [List.append_assoc]
    exact .blanked w ih

theorem wider (c : Char) (gapped : Gapped t (' ' :: s)) : Gapped (c :: t) (' ' :: s) := by
  cases gapped with
  | kept _ rest => exact .blanked [c, ' '] rest
  | blanked w rest => exact .blanked (c :: w) rest

theorem mem (gapped : Gapped t s) (member : c ∈ s) : c = ' ' ∨ c ∈ t := by
  induction gapped with
  | done => cases member
  | kept d _ ih =>
    rcases List.mem_cons.mp member with rfl | later
    · exact .inr List.mem_cons_self
    · exact (ih later).imp id (List.mem_cons_of_mem d)
  | blanked w _ ih =>
    rcases List.mem_cons.mp member with rfl | later
    · exact .inl rfl
    · exact (ih later).imp id (List.mem_append_right w)

section Solid

variable (solid : ' ' ∉ m)
include solid

theorem spaceless (filled : m ≠ []) (s : Text) : ¬ m <+: ' ' :: s := by
  intro start
  obtain ⟨d, m, rfl⟩ := List.exists_cons_of_ne_nil filled
  obtain ⟨rfl, _⟩ := List.cons_prefix_cons.mp start
  exact solid List.mem_cons_self

theorem starts (gapped : Gapped t s) (start : m <+: s) : m <+: t := by
  induction gapped generalizing m with
  | done => exact start
  | kept c _ ih =>
    cases m with
    | nil => exact List.nil_prefix
    | cons d m =>
      obtain ⟨rfl, later⟩ := List.cons_prefix_cons.mp start
      have rest := ih (fun inside => solid (List.mem_cons_of_mem d inside)) later
      exact List.cons_prefix_cons.mpr ⟨rfl, rest⟩
  | blanked w _ _ =>
    cases m with
    | nil => exact List.nil_prefix
    | cons d m => exact absurd start (spaceless solid (by simp) _)

theorem within (gapped : Gapped t s) (filled : m ≠ []) (inside : m <:+: s) : m <:+: t := by
  induction gapped with
  | done => exact inside
  | kept c rest ih =>
    rcases List.infix_cons_iff.mp inside with here | later
    · exact ((Gapped.kept c rest).starts solid here).isInfix
    · exact List.infix_cons (ih later)
  | blanked w rest ih =>
    rcases List.infix_cons_iff.mp inside with here | later
    · exact absurd here (spaceless solid filled _)
    · exact (ih later).trans (List.suffix_append w _).isInfix

end Solid

end Gapped

theorem gapped_squeeze (t : Text) : Gapped t (squeeze t) := by
  induction t with
  | nil => exact .done
  | cons c t ih =>
    rw [squeeze_cons]
    cases blank : isBlank c with
    | false =>
      rw [push_solid blank]
      exact .kept c ih
    | true =>
      rcases push_cases blank (squeeze t) with ⟨rest, shape, same⟩ | space
      · rw [same, shape]
        exact (shape ▸ ih).wider c
      · rw [space]
        exact .blanked [c] ih

end Text

namespace Scan

variable {α : Type} {find : Finder α} {g : Piece α → Text}
  (kept : ∀ c, g (.loose c) = [c]) (spaced : ∀ a raw, g (.token a raw) = [' '])
include kept spaced

theorem gapped_pieces (ps : List (Piece α)) : Text.Gapped (ps.flatMap Piece.raw) (ps.flatMap g) := by
  induction ps with
  | nil => exact .done
  | cons p ps ih =>
    rw [List.flatMap_cons, List.flatMap_cons]
    cases p with
    | loose c =>
      rw [kept]
      exact .kept c ih
    | token a raw =>
      rw [spaced]
      exact .blanked raw ih

/-- What a scan finds wherever it stands is not in what the scan leaves. -/
theorem not_left {m : Text} (filled : m ≠ []) (solid : ' ' ∉ m)
    (found : ∀ before r, ∃ a n, find before (m ++ r) = some (a, n + 1)) (t : Text) :
    ¬ m <:+: (pieces find t).flatMap g := by
  -- the scan goes on within a token, so the induction is over all of its states
  suffices all : ∀ count before, ¬ m <:+: (behind find count before t).flatMap g from all 0 none
  induction t with
  | nil =>
    intro count before inside
    have empty : behind find count before [] = [] := by cases count <;> rfl
    rw [empty, List.flatMap_nil, List.infix_nil] at inside
    exact filled inside
  | cons c t ih =>
    intro count before inside
    cases count with
    | succ more => exact ih more (some c) inside
    | zero =>
      have gapped := gapped_pieces kept spaced (behind find 0 (some c) t)
      rw [raw_behind, List.drop_zero] at gapped
      unfold behind at inside
      split at inside
      · rw [List.flatMap_cons, spaced, List.singleton_append] at inside
        rcases List.infix_cons_iff.mp inside with here | later
        · exact Text.Gapped.spaceless solid filled _ here
        · exact ih _ _ later
      · rename_i unfound
        rw [List.flatMap_cons, kept, List.singleton_append] at inside
        rcases List.infix_cons_iff.mp inside with here | later
        -- it then begins the text itself, where the scan just found nothing
        · obtain ⟨r, same⟩ := (Text.Gapped.kept c gapped).starts solid here
          obtain ⟨a, n, one⟩ := found before r
          rw [same] at one
          exact unfound a n one
        · exact ih _ _ later

end Scan

end CardCatalog
