import CardCatalog.Word

/-!
Page numbers. The bar of links under a result shows up to seven consecutive pages around
the current one, shifted at either end so that it keeps its width. A bar is a
`PageWindow` with `compute` and `pages`; `pageCount` is `total_pages`.
-/

namespace CardCatalog

structure PageWindow where
  first : Nat
  last : Nat
  deriving DecidableEq

namespace Paging

def radius : Nat := 3

/-- Even an empty result has a page, and a page has room for at least one hit. -/
def pageCount (total pageSize : Nat) : Nat :=
  let size := max pageSize 1
  max ((total + (size - 1)) / size) 1

def clamp (page count : Nat) : Nat := min (max page 1) count

def window (total page pageSize : Nat) : PageWindow :=
  let count := pageCount total pageSize
  let page := clamp page count
  let left := max (page - radius) 1
  let right := min (Word.add page radius) count
  let right := if page ≤ radius then min (right + radius + 1 - page) count else right
  let beyond := count - page
  let left := if beyond ≤ radius then max (left + beyond - radius) 1 else left
  ⟨left, max right left⟩

def pages (w : PageWindow) : List Nat := List.range' w.first (w.last + 1 - w.first)

end Paging

end CardCatalog
