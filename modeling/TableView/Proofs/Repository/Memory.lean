import Mathlib.Data.List.Forall2
import TableView.Proofs.Repository.Run
import TableView.Proofs.Repository.Saved
import TableView.Repository.Memory

/-!
# The repository in memory

A repository in memory refuses nothing but the deletion of a missing view. However it
was come by, its pages are well formed, so saving a view leaves exactly one view with
the view's id and touches no other.
-/

namespace TableView

/-- The answers that a call can get: loading yields saved views, the first of them selected,
or nothing; saving yields an id; and only the deletion of a missing view fails. -/
inductive Call.Allows : Call → Answer → Prop where
  | nothing (page : Page) : Allows (.load page) (.loaded (.ok none))
  | loaded (page : Page) {views : List View} (some_ : views ≠ []) :
      Allows (.load page) (.loaded (.ok (some ⟨page, views, 0⟩)))
  | saved (page : Page) (v : View) (id : UInt32) : Allows (.change (.save page v)) (.saved (.ok id))
  | deleted (page : Page) (id : UInt32) : Allows (.change (.delete page id)) (.deleted (.ok ()))
  | missing (page : Page) (id : UInt32) :
      Allows (.change (.delete page id)) (.deleted (.error (.viewNotFound page id)))

namespace MemoryRepository

variable {m : MemoryRepository} {page : Page} {v : View}

/-- The repository with other views on a page. -/
def setViews (m : MemoryRepository) (page : Page) (views : List View) : MemoryRepository :=
  ⟨Page.update m.pages page views⟩

@[simp] theorem pages_setViews_self (m : MemoryRepository) (page : Page) (views : List View) :
    (m.setViews page views).pages page = views := Page.update_self ..

@[simp] theorem pages_setViews_of_ne (m : MemoryRepository) {page other : Page} (h : other ≠ page)
    (views : List View) : (m.setViews page views).pages other = m.pages other :=
  Page.update_of_ne m.pages h views

theorem save_eq_setViews (m : MemoryRepository) (page : Page) (v : View) :
    m.save page v = m.setViews page (SavedViews.save (m.pages page) v) := rfl

theorem delete_of_found {id : UInt32} {rest : List View}
    (found : SavedViews.remove? id (m.pages page) = some rest) :
    Repository.delete m page id = .ok ⟨m.setViews page rest, []⟩ := by
  simp only [Repository.delete, delete, found, Except.map, setViews]

theorem delete_of_missing {id : UInt32} (missing : SavedViews.remove? id (m.pages page) = none) :
    Repository.delete m page id = .error (.viewNotFound page id) := by
  simp only [Repository.delete, delete, missing, Except.map]

theorem answer_allowed (m : MemoryRepository) (call : Call) :
    call.Allows (Repository.answer m call) := by
  cases call with
  | load page =>
      cases views : m.pages page with
      | nil =>
          have none_ : m.load page = none := by simp [load, views]
          simp only [Repository.answer, Repository.load, none_]
          exact .nothing page
      | cons v rest =>
          have some_ : m.load page = some ⟨page, v :: rest, 0⟩ := by simp [load, views]
          simp only [Repository.answer, Repository.load, some_]
          exact .loaded page (List.cons_ne_nil v rest)
  | change change =>
      cases change with
      | save page v => exact .saved page v _
      | delete page id =>
          cases removed : SavedViews.remove? id (m.pages page) with
          | none =>
              simp only [Repository.answer, delete_of_missing removed, Except.map]
              exact .missing page id
          | some rest =>
              simp only [Repository.answer, delete_of_found removed, Except.map]
              exact .deleted page id

/-- Whatever is asked of a memory, and in whatever order, is answered as allowed. -/
theorem answers_allowed (m : MemoryRepository) (calls : List Call) :
    List.Forall₂ Call.Allows calls (Repository.answers m calls) := by
  induction calls generalizing m with
  | nil => exact .nil
  | cons call rest ih => exact .cons (m.answer_allowed call) (ih _)

theorem setViews_wellFormed (wellFormed : ∀ page, SavedViews.WellFormed (m.pages page))
    (page : Page) {views : List View} (new : SavedViews.WellFormed views) (other : Page) :
    SavedViews.WellFormed ((m.setViews page views).pages other) := by
  by_cases here : other = page
  · rw [here, pages_setViews_self]
    exact new
  · rw [pages_setViews_of_ne m here]
    exact wellFormed other

theorem wellFormed_run (changes : List Change) (page : Page) :
    SavedViews.WellFormed ((Repository.run empty changes).pages page) := by
  have initially (page : Page) : SavedViews.WellFormed (empty.pages page) := .nil
  refine Repository.run_keeps (P := fun m : MemoryRepository =>
    ∀ page, SavedViews.WellFormed (m.pages page)) ?_ ?_ initially changes page
  · intro m page v id commit wellFormed saved
    cases saved
    exact setViews_wellFormed wellFormed page ((wellFormed page).put _ v)
  · intro m page id commit wellFormed deleted
    cases removed : SavedViews.remove? id (m.pages page) with
    | none =>
        rw [delete_of_missing removed] at deleted
        cases deleted
    | some rest =>
        rw [delete_of_found removed] at deleted
        cases deleted
        exact setViews_wellFormed wellFormed page
          ((wellFormed page).sublist (SavedViews.remove?_sublist removed))

/-- Whether all that has happened to a repository is that a view was saved under an id: it
stands there once, and the views that it did not replace are as before. -/
structure HasSaved (before after : MemoryRepository) (page : Page) (v : View) (id : UInt32) :
    Prop where
  once : (after.pages page).filter (·.id = some id) = [{ v with id := some id }]
  others : (after.pages page).filter (·.id ≠ some id) =
    (before.pages page).filter fun w => v.id = none ∨ w.id ≠ v.id
  elsewhere : ∀ other, other ≠ page → after.pages other = before.pages other

/-- Saving does nothing else as long as a new view gets an id of its own. -/
theorem hasSaved_save (wellFormed : SavedViews.WellFormed (m.pages page))
    (below : ∀ w ∈ m.pages page, w.id ≠ some 0xffffffff) (v : View) :
    HasSaved m (m.save page v) page v (SavedViews.idFor (m.pages page) v) where
  once := by
    rw [save_eq_setViews, pages_setViews_self]
    exact SavedViews.filter_put_self wellFormed.distinct
  others := by
    rw [save_eq_setViews, pages_setViews_self]
    exact (SavedViews.filter_save_other_iff _ v).2 (SavedViews.idFor_fresh below)
  elsewhere other different := pages_setViews_of_ne m different _

/-- A view that was given its id is saved under it, to no effect. -/
theorem save_again (m : MemoryRepository) (page : Page) (v : View) :
    let saved : View := { v with id := some (SavedViews.idFor (m.pages page) v) }
    (m.save page v).save page saved = m.save page v := by
  intro saved
  have stored : (m.save page v).pages page = SavedViews.save (m.pages page) v :=
    Page.update_self ..
  have same : SavedViews.save (SavedViews.save (m.pages page) v) saved =
      SavedViews.save (m.pages page) v :=
    (SavedViews.put_withId _ v _).trans (SavedViews.put_put _ v _)
  rw [save_eq_setViews, stored, same]
  exact congrArg MemoryRepository.mk (Page.update_eq_self stored)

theorem load_save (m : MemoryRepository) (page : Page) (v : View) :
    (m.save page v).load page = some ⟨page, SavedViews.save (m.pages page) v, 0⟩ := by
  have stored : (m.save page v).pages page = SavedViews.save (m.pages page) v :=
    Page.update_self ..
  have some_ : SavedViews.save (m.pages page) v ≠ [] := SavedViews.put_ne_nil _ v _
  rw [load, stored, if_neg (by simpa using some_)]

end MemoryRepository

end TableView
