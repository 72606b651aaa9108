import TableView.Repository.Basic

/-!
# The repository in memory

Keeps the saved views of every page as a list. A page on which nothing was saved
and a page from which everything was deleted look the same.
-/

namespace TableView

/-- The saved views of all pages. -/
structure MemoryRepository where
  pages : Page → List View

namespace MemoryRepository

/-- The repository in which nothing was saved. -/
def empty : MemoryRepository := ⟨fun _ => []⟩

/-- Saves several views on a page, one after the other. -/
def withViews (r : MemoryRepository) (page : Page) (views : List View) : MemoryRepository :=
  ⟨Page.update r.pages page (views.foldl SavedViews.save (r.pages page))⟩

/-- The saved views of a page, the first one selected. -/
def load (r : MemoryRepository) (page : Page) : Option PageViews :=
  if (r.pages page).isEmpty then none else some ⟨page, r.pages page, 0⟩

/-- Saves a view on a page. -/
def save (r : MemoryRepository) (page : Page) (v : View) : MemoryRepository :=
  ⟨Page.update r.pages page (SavedViews.save (r.pages page) v)⟩

/-- Deletes a view from a page. -/
def delete (r : MemoryRepository) (page : Page) (id : UInt32) :
    Except RepositoryError MemoryRepository :=
  match SavedViews.remove? id (r.pages page) with
  | some rest => .ok ⟨Page.update r.pages page rest⟩
  | none => .error (.viewNotFound page id)

instance : Repository MemoryRepository where
  load r page := .ok (r.load page)
  save r page v := .ok (SavedViews.idFor (r.pages page) v, ⟨r.save page v, []⟩)
  delete r page id := (r.delete page id).map fun next => ⟨next, []⟩

end MemoryRepository

end TableView
