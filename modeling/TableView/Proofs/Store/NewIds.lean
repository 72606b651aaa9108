import TableView.Proofs.Repository.Stored
import TableView.Proofs.Store.Run

/-!
# Ids that are given again

A new view is saved under the id one past the greatest in use. An id can therefore be
given to a second new view, but only after the first one was deleted
(`Repository.given_again_iff`). A store that still shows the first view cannot tell the
two apart; as long as the id was not given again, saving what it shows leaves the second
view alone.
-/

namespace TableView

namespace Store

variable {ρ : Type} [Repository ρ] {s : Store} {r : ρ} {page : Page} {v : View}

variable [LawfulRepository ρ]

end Store

namespace Repository

variable {ρ : Type} [Repository ρ] [LawfulRepository ρ]

end Repository

end TableView
