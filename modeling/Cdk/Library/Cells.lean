import Mathlib.Data.List.FinRange

/-!
# Cells that hold at most one item

A fixed number of cells, each empty or with one item.  `contents` lists the
items in the order of the cells; filling an empty cell adds one item to the
contents and emptying a cell removes one, wherever the cell is.
-/

namespace Cells

open Function

variable {α : Type u} {size : Nat}

def contents (cells : Fin size → Option α) : List α := (List.finRange size).filterMap cells

theorem filterMap_update_of_notMem {order : List (Fin size)} (absent : cell ∉ order)
    (new : Option α) :
    order.filterMap (update cells cell new) = order.filterMap cells := by
  apply List.filterMap_congr
  intro other present
  rw [update_of_ne]
  rintro rfl
  exact absent present

theorem contents_update_some (cells : Fin size → Option α) (cell : Fin size) (item : α) :
    (contents (update cells cell (some item))).Perm
      (item :: contents (update cells cell none)) := by
  obtain ⟨early, late, split⟩ := List.append_of_mem (List.mem_finRange cell)
  have distinct := List.nodup_finRange size
  rw [split, List.nodup_middle, List.nodup_cons, List.mem_append, not_or] at distinct
  obtain ⟨⟨notEarly, notLate⟩, -⟩ := distinct
  simp only [contents, split, List.filterMap_append, List.filterMap_cons,
    update_self, filterMap_update_of_notMem notEarly,
    filterMap_update_of_notMem notLate]
  exact List.perm_middle

theorem contents_fill (empty : cells cell = none) (item : α) :
    (contents (update cells cell (some item))).Perm (item :: contents cells) := by
  have same : update cells cell none = cells := by
    rw [← empty, update_eq_self]
  simpa only [same] using contents_update_some cells cell item

theorem contents_clear (filled : cells cell = some item) : (contents cells).Perm
    (item :: contents (update cells cell none)) := by
  have same : update cells cell (some item) = cells := by
    rw [← filled, update_eq_self]
  simpa only [same] using contents_update_some cells cell item

end Cells
