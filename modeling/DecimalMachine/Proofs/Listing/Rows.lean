/-
# Rows of a listing

A program of which every entry can be written into memory has an image, and a listing with one row for
each address below its extent.
-/

import DecimalMachine.Listing

namespace DecimalMachine

variable {p : Program}

/-- The image of a program that fits is made by writing its entries in order. -/
theorem Program.Loadable.image? (h : p.Loadable) : p.image? = .ok (writeAll .zero p.entries) := by
  have inside : p.entries.find? (fun e => memorySize ≤ e.address) = none := by
    rw [List.find?_eq_none]
    intro e member
    have room := (h e member).1
    rw [decide_eq_true_iff]
    omega
  rw [Program.image?, inside]

/-- There is a row for each address of a program that fits. -/
theorem Listing.rows_of_loadable (h : p.Loadable) :
    rows p =
      .ok ((List.range p.extent).map (rowAt p (Program.writeAll .zero p.entries))) := by
  rw [rows, h.image?]
  rfl

end DecimalMachine
