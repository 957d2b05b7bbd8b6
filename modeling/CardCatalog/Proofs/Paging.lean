import Mathlib.Algebra.Order.Floor.Div
import Mathlib.Data.List.Range
import CardCatalog.Paging

/-!
The arithmetic of pages. In words the bar is computed without leaving them; in integers it
is seven pages around the current one, pushed back where these would leave the result.
-/

namespace CardCatalog

namespace Word

variable {a b : Nat}

/-- Nothing where the sum is no word. -/
def add? (a b : Nat) : Option Nat := if a + b ≤ greatest then some (a + b) else none

def sub? (a b : Nat) : Option Nat := if b ≤ a then some (a - b) else none

def ceilDiv? (a b : Nat) : Option Nat :=
  if b = 0 then none else if a % b = 0 then some (a / b) else add? (a / b) 1

theorem add?_eq (fits : a + b ≤ greatest) : add? a b = some (a + b) := if_pos fits

theorem sub?_eq (fits : b ≤ a) : sub? a b = some (a - b) := if_pos fits

theorem ceilDiv?_eq (word : a ≤ greatest) (room : 1 ≤ b) :
    ceilDiv? a b = some ((a + (b - 1)) / b) := by
  have split := Nat.div_add_mod a b
  have short := Nat.mod_lt a room
  have whole : (a + (b - 1)) / b = a / b + (a % b + (b - 1)) / b := by
    rw [← Nat.mul_add_div room, ← Nat.add_assoc, split]
  rw [ceilDiv?, if_neg (by omega), whole]
  by_cases even : a % b = 0
  · have none : (a % b + (b - 1)) / b = 0 := Nat.div_eq_of_lt (by omega)
    rw [if_pos even, none, Nat.add_zero]
  · have one : (a % b + (b - 1)) / b = 1 := Nat.div_eq_of_lt_le (by omega) (by omega)
    have smaller : a / b < a := Nat.div_lt_self (by omega) (by omega)
    rw [if_neg even, one, add?_eq (by omega)]

end Word

namespace Paging

variable {n total page size : Nat}

/-- The last page of the bar as it is computed in words: only the first sum is stopped at
their end, the others must not leave them. -/
def right? (page count : Nat) : Option Nat :=
  let right := min (Word.add page radius) count
  if page ≤ radius then do
    let far ← Word.add? (← Word.add? right radius) 1
    return min (← Word.sub? far page) count
  else some right

def left? (page count : Nat) : Option Nat := do
  let left := max (page - radius) 1
  let beyond ← Word.sub? count page
  if beyond ≤ radius then
    return max ((← Word.add? left beyond) - radius) 1
  else return left

def window? (total page pageSize : Nat) : Option PageWindow := do
  let count := max (← Word.ceilDiv? total (max pageSize 1)) 1
  let page := clamp page count
  let right ← right? page count
  let left ← left? page count
  return ⟨left, max right left⟩

theorem pageCount_eq (total size : Nat) :
    pageCount total size = max 1 (total ⌈/⌉ max 1 size) := by
  rw [pageCount, Nat.max_comm 1 size, Nat.max_comm 1, Nat.ceilDiv_eq_add_pred_div,
    Nat.add_sub_assoc (Nat.le_max_right size 1)]

theorem pageCount_pos (total size : Nat) : 1 ≤ pageCount total size := Nat.le_max_right _ _

/-- The pages are the least number that has room for everything. -/
theorem pageCount_le_iff (room : 1 ≤ size) (some : 1 ≤ n) :
    pageCount total size ≤ n ↔ total ≤ size * n := by
  rw [pageCount_eq, Nat.max_eq_right room, Nat.max_le, ceilDiv_le_iff_le_mul room]
  exact and_iff_right some

theorem pageCount_word (word : total ≤ Word.greatest) (size : Nat) :
    pageCount total size ≤ Word.greatest := by
  have some : 1 ≤ Word.greatest := by decide
  have room : 1 ≤ max size 1 := Nat.le_max_right size 1
  have same : pageCount total (max size 1) = pageCount total size := by simp [pageCount]
  rw [← same, pageCount_le_iff room some]
  exact Nat.le_trans word (Nat.le_mul_of_pos_left _ room)

theorem clamp_eq (page : Nat) {count : Nat} (some : 1 ≤ count) :
    clamp page count = max 1 (min page count) := by
  rw [clamp]
  omega

theorem clamp_within (page : Nat) {count : Nat} (some : 1 ≤ count) :
    1 ≤ clamp page count ∧ clamp page count ≤ count := by
  rw [clamp]
  omega

section Window

variable {here count : Nat} (first : 1 ≤ here) (within : here ≤ count)
  (word : count ≤ Word.greatest)
include first within word

omit first in
-- Where the first sum is stopped, it is stopped by the result.
theorem right_sum : min (Word.add here radius) count = min (here + 3) count := by
  have wide : radius = 3 := rfl
  rw [Word.add]
  omega

theorem right?_eq : right? here count = some
    (if here ≤ radius then min (min (Word.add here radius) count + radius + 1 - here) count
      else min (Word.add here radius) count) := by
  have wide : radius = 3 := rfl
  have room : 10 ≤ Word.greatest := by decide
  rw [right?, right_sum within word]
  split
  · rw [Word.add?_eq (by omega), Option.bind_eq_bind, Option.bind_some, Word.add?_eq (by omega),
      Option.bind_some, Word.sub?_eq (by omega)]
    rfl
  · rfl

theorem left?_eq : left? here count = some
    (if count - here ≤ radius then max (max (here - radius) 1 + (count - here) - radius) 1
      else max (here - radius) 1) := by
  have wide : radius = 3 := rfl
  rw [left?, Word.sub?_eq within, Option.bind_eq_bind, Option.bind_some]
  split
  · rw [Word.add?_eq (by omega)]
    rfl
  · rfl

theorem right_eq :
    (if here ≤ radius then min (min (Word.add here radius) count + radius + 1 - here) count
      else min (Word.add here radius) count) = min count (max (here + 3) 7) := by
  have wide : radius = 3 := rfl
  rw [right_sum within word]
  split <;> omega

omit word in
theorem left_eq :
    (if count - here ≤ radius then max (max (here - radius) 1 + (count - here) - radius) 1
      else max (here - radius) 1) = max 1 (min (here - 3) (count - 6)) := by
  have wide : radius = 3 := rfl
  split <;> omega

omit word in
theorem ends_ordered :
    max (min count (max (here + 3) 7)) (max 1 (min (here - 3) (count - 6))) =
      min count (max (here + 3) 7) := by
  omega

end Window

theorem window?_eq (word : total ≤ Word.greatest) (page size : Nat) :
    window? total page size = some (window total page size) := by
  have limit := pageCount_word word size
  obtain ⟨first, within⟩ := clamp_within page (pageCount_pos total size)
  have counted := Word.ceilDiv?_eq word (Nat.le_max_right size 1)
  rw [window?, counted, Option.bind_eq_bind, Option.bind_some, ← pageCount]
  dsimp only
  rw [right?_eq first within limit, Option.bind_some, left?_eq first within limit]
  rfl

theorem window_eq (word : total ≤ Word.greatest) (page size : Nat) :
    window total page size =
      ⟨max 1 (min (clamp page (pageCount total size) - 3) (pageCount total size - 6)),
        min (pageCount total size) (max (clamp page (pageCount total size) + 3) 7)⟩ := by
  obtain ⟨first, within⟩ := clamp_within page (pageCount_pos total size)
  rw [window, right_eq first within (pageCount_word word size), left_eq first within,
    ends_ordered first within]

theorem mem_pages_iff {w : PageWindow} : n ∈ pages w ↔ w.first ≤ n ∧ n ≤ w.last := by
  rw [pages, List.mem_range'_1]
  omega

theorem mem_pages (listed : n ∈ pages (window total page size)) :
    1 ≤ n ∧ n ≤ pageCount total size := by
  have some := pageCount_pos total size
  have within := (clamp_within page some).2
  rw [mem_pages_iff] at listed
  simp only [window] at listed
  -- how the page and the count came about does not matter for the bounds
  generalize pageCount total size = count at *
  generalize clamp page count = here at *
  generalize Word.add here radius = far at *
  have wide : radius = 3 := rfl
  split at listed <;> split at listed <;> omega

theorem page_begins (some : 1 ≤ total) (room : 1 ≤ size) (first : 1 ≤ n)
    (last : n ≤ pageCount total size) : (n - 1) * size < total := by
  rcases Nat.eq_or_lt_of_le first with rfl | later
  · omega
  · have fewer : ¬ pageCount total size ≤ n - 1 := by omega
    rw [pageCount_le_iff room (by omega), Nat.mul_comm] at fewer
    exact Nat.lt_of_not_le fewer

theorem le_pageCount_mul (total : Nat) {size : Nat} (room : 1 ≤ size) :
    total ≤ pageCount total size * size := by
  rw [Nat.mul_comm]
  exact (pageCount_le_iff room (pageCount_pos total size)).mp (Nat.le_refl _)

/-- The bar of a result with so many pages around one of them: in integers it ends three pages
on either side, or else where it has seven pages or all there are. -/
structure Bar (count here : Nat) (w : PageWindow) : Prop where
  first : (w.first : Int) = max 1 (min (here - 3) (count - 6))
  last : (w.last : Int) = min count (max (here + 3) 7)
  successive : (pages w).IsChain fun m n => n = m + 1
  shown : here ∈ pages w
  within : ∀ n ∈ pages w, 1 ≤ n ∧ n ≤ count
  width : (pages w).length = min count 7

theorem bar_window (word : total ≤ Word.greatest) (page size : Nat) :
    Bar (pageCount total size) (clamp page (pageCount total size)) (window total page size) := by
  obtain ⟨first, within⟩ := clamp_within page (pageCount_pos total size)
  have left := congrArg PageWindow.first (window_eq word page size)
  have right := congrArg PageWindow.last (window_eq word page size)
  dsimp only at left right
  generalize window total page size = w at *
  generalize pageCount total size = count at *
  generalize clamp page count = here at *
  constructor
  case first => omega
  case last => omega
  case successive => exact List.isChain_range' _ _ _
  case shown => exact mem_pages_iff.mpr (by omega)
  case within =>
    intro n listed
    have ends := mem_pages_iff.mp listed
    omega
  case width =>
    rw [pages, List.length_range']
    omega

/-- No sum and no difference leaves the words, and the bar is the one it is meant to be; it is
the last one for every page behind the result. -/
theorem window_exact (total page size : UInt64) :
    pageCount total.toNat size.toNat = max 1 (total.toNat ⌈/⌉ max 1 size.toNat) ∧
    clamp page.toNat (pageCount total.toNat size.toNat) =
      max 1 (min page.toNat (pageCount total.toNat size.toNat)) ∧
    window? total.toNat page.toNat size.toNat =
      some (window total.toNat page.toNat size.toNat) ∧
    Bar (pageCount total.toNat size.toNat) (clamp page.toNat (pageCount total.toNat size.toNat))
      (window total.toNat page.toNat size.toNat) ∧
    ∀ n, pageCount total.toNat size.toNat ≤ n →
      window total.toNat n size.toNat =
        window total.toNat (pageCount total.toNat size.toNat) size.toNat := by
  have word : total.toNat ≤ Word.greatest := Nat.le_of_lt_succ total.toNat_lt
  refine ⟨pageCount_eq _ _, clamp_eq _ (pageCount_pos _ _), window?_eq word _ _,
    bar_window word _ _, fun n beyond => ?_⟩
  have same : clamp n (pageCount total.toNat size.toNat) =
      clamp (pageCount total.toNat size.toNat) (pageCount total.toNat size.toNat) := by
    rw [clamp, clamp]
    omega
  rw [window_eq word, window_eq word, same]

/-- As many hits as a word can count, two on a page, and a page far behind the last. -/
theorem window_exact_greatest :
    window? Word.greatest Word.greatest 2 = some ⟨2 ^ 63 - 6, 2 ^ 63⟩ ∧
      Bar (2 ^ 63) (2 ^ 63) ⟨2 ^ 63 - 6, 2 ^ 63⟩ ∧ 2 ^ 63 ≤ Word.greatest ∧
      window Word.greatest Word.greatest 2 = window Word.greatest (2 ^ 63) 2 := by
  obtain ⟨_, _, computed, bar, last⟩ := window_exact 0xFFFFFFFFFFFFFFFF 0xFFFFFFFFFFFFFFFF 2
  have shape : window Word.greatest Word.greatest 2 = ⟨2 ^ 63 - 6, 2 ^ 63⟩ := by decide +kernel
  have behind : 2 ^ 63 ≤ Word.greatest := by decide +kernel
  exact ⟨computed.trans (congrArg some shape), shape ▸ bar, behind, last Word.greatest behind⟩

end Paging

end CardCatalog
