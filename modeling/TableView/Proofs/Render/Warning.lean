import Mathlib.Data.List.Basic
import TableView.Render

/-!
# The warning of a rendering

Each stage of a rendering collects its issues on its own way: the filter in the tree that it
checks, the sort beside the keys that it keeps, the grouping at its only key. What they
collect is what validating the three parts of the view reports, and the warning has those
issues once each, in the order in which they first occur. Records have no part in it.
-/

namespace TableView

namespace Warning

end Warning

namespace Renderer

/-- What two clauses have in common is reported once, and once more for each other section. -/
example :
    let ghost : Clause := ⟨"ghost", .isEmpty⟩
    let v : View := { View.plain "Peers" Catalog.peersColumns with
      filter := .group .any [.clause ghost, .group .all [.clause ghost]]
      sortKeys := [⟨"ghost", .ascending⟩, ⟨"setting", .ascending⟩, ⟨"ghost", .descending⟩]
      groupBy := some "ghost" }
    plain.warning v = some ⟨[.unknownColumn .filter "ghost", .unknownColumn .sort "ghost",
      .unknownColumn .grouping "ghost"]⟩ := by
  decide

end Renderer

end TableView
