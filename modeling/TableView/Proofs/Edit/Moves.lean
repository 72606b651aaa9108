import Mathlib.Data.List.InsertIdx
import TableView.Proofs.Edit.Deletions
import TableView.Proofs.Edit.Locked

/-!
# Moving a column and moving it back

A column is moved by taking it out and putting it in at its new place among the others. So the
others stay as they were, whether they have the keys of other columns or not, and the opposite
move takes out the same column and puts it in where it was.
-/

namespace TableView

/-- An item that is put in among the others and taken out again leaves the others; put in at its
old place it completes the list. -/
theorem insertIdx_eraseIdx_moved {l : List α} {source target : Nat} {a : α}
    (here : l[source]? = some a) :
    (((l.eraseIdx source).insertIdx target a).eraseIdx target).insertIdx source a = l := by
  obtain ⟨inRange, rfl⟩ := List.getElem?_eq_some_iff.1 here
  rw [List.eraseIdx_insertIdx_self, List.insertIdx_eraseIdx_getElem inRange]

theorem getElem?_moved {l : List α} {source target : Nat} {a : α} (here : l[source]? = some a)
    (inRange : target < l.length) : ((l.eraseIdx source).insertIdx target a)[target]? = some a := by
  have shorter : target ≤ (l.eraseIdx source).length := by
    rw [List.length_eraseIdx_of_lt (exists_getElem?_iff.1 ⟨a, here⟩)]
    omega
  rw [List.getElem?_insertIdx_self, if_pos shorter]

namespace PageViews

variable {catalog : Option Catalog} {p next : PageViews} {index source target : Nat} {v : View}

theorem apply_moveColumn_iff (here : p.views[index]? = some v) :
    p.apply catalog (.inView index (.moveColumn source target)) = .ok next ↔
      ∃ c, v.columns[source]? = some c ∧ target < v.columns.length ∧
        next = p.withColumns index v ((v.columns.eraseIdx source).insertIdx target c) := by
  have unrefused : (ViewEdit.moveColumn source target).refusal? catalog = none := rfl
  simp only [apply_inView_iff, unrefused, here, Option.some.injEq, true_and,
    ViewEdit.apply_moveColumn_iff, exists_eq_left']
  constructor
  · rintro ⟨_, ⟨c, held, inRange, rfl⟩, rfl⟩
    exact ⟨c, held, inRange, rfl⟩
  · rintro ⟨c, held, inRange, rfl⟩
    exact ⟨_, ⟨c, held, inRange, rfl⟩, rfl⟩

/-- A move of a column is accepted exactly if the view is there and both places are places of its
columns. It takes the column to its new place, leaves the other columns in their order and
everything else as it was, and the opposite move is accepted then and restores the views. -/
theorem moveColumn_restored (catalog : Option Catalog) (p : PageViews)
    (index source target : Nat) :
    ((∃ next, p.apply catalog (.inView index (.moveColumn source target)) = .ok next) ↔
      ∃ v, p.views[index]? = some v ∧ source < v.columns.length ∧ target < v.columns.length) ∧
    ∀ next, p.apply catalog (.inView index (.moveColumn source target)) = .ok next →
      ∃ v c columns, p.views[index]? = some v ∧ next = p.withColumns index v columns ∧
        v.columns[source]? = some c ∧ columns[target]? = some c ∧
        columns.eraseIdx target = v.columns.eraseIdx source ∧ columns.Perm v.columns ∧
        next.apply catalog (.inView index (.moveColumn target source)) = .ok p := by
  constructor
  · constructor
    · rintro ⟨next, accepted⟩
      obtain ⟨-, v, here, -⟩ := apply_inView_iff.1 accepted
      obtain ⟨c, held, inRange, -⟩ := (apply_moveColumn_iff here).1 accepted
      exact ⟨v, here, exists_getElem?_iff.1 ⟨c, held⟩, inRange⟩
    · rintro ⟨v, here, sourceInRange, targetInRange⟩
      obtain ⟨c, held⟩ := exists_getElem?_iff.2 sourceInRange
      exact ⟨_, (apply_moveColumn_iff here).2 ⟨c, held, targetInRange, rfl⟩⟩
  · intro next accepted
    obtain ⟨-, v, here, -⟩ := apply_inView_iff.1 accepted
    obtain ⟨c, held, inRange, rfl⟩ := (apply_moveColumn_iff here).1 accepted
    have perm := perm_moved held inRange
    refine ⟨v, c, _, here, rfl, held, getElem?_moved held inRange,
      List.eraseIdx_insertIdx_self c, perm, ?_⟩
    refine (apply_moveColumn_iff (getElem?_withColumns here _)).2
      ⟨c, getElem?_moved held inRange, ?_, ?_⟩
    · rw [perm.length_eq]
      exact exists_getElem?_iff.1 ⟨c, held⟩
    · rw [withColumns_withColumns, insertIdx_eraseIdx_moved held, withColumns_self here]

/-- The first of three columns, two of which are the same, is moved behind the others. -/
theorem moveColumn_restored_twice :
    let peer := Column.plain "alias" "Alias" .nodeAlias .text
    let status := Column.plain "status" "Status" .text .tag
    let p : PageViews := ⟨.peers, [.plain "Twice" [peer, status, status]], 0⟩
    let next : PageViews := ⟨.peers, [.plain "Twice" [status, status, peer]], 0⟩
    p.apply none (.inView 0 (.moveColumn 0 2)) = .ok next ∧
      next.apply none (.inView 0 (.moveColumn 2 0)) = .ok p := by
  intro peer status p next
  have accepted : p.apply none (.inView 0 (.moveColumn 0 2)) = .ok next := rfl
  obtain ⟨_, _, _, _, _, _, _, _, _, restored⟩ :=
    (moveColumn_restored none p 0 0 2).2 next accepted
  exact ⟨accepted, restored⟩

end PageViews

end TableView
