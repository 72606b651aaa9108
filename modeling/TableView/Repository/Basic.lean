import TableView.Log
import TableView.View

/-!
# Repositories

A repository keeps the saved views of every page. Saved views have ids; a view
that has none yet gets the next free one, and saving a view under an id replaces
the view that had it.
-/

namespace TableView

/-- Why a repository did not do what it was asked. -/
inductive RepositoryError where
  /-- The file system refused. -/
  | io
  /-- A file does not spell the views of a page. -/
  | json
  | invalidFormat (detail : String)
  | viewNotFound (page : Page) (id : UInt32)
deriving DecidableEq

/-- The text of an error, where it does not come from outside the library. -/
def RepositoryError.message? : RepositoryError → Option String
  | io => none
  | json => none
  | invalidFormat detail => some ("Invalid file format: " ++ detail)
  | viewNotFound page id => some ("View " ++ toString id ++ " not found on page " ++ page.name)

/-- What a repository has become, and what it reports. -/
structure Commit (ρ : Type) where
  repository : ρ
  log : List LogLine

/-- Something that keeps saved views. -/
class Repository (ρ : Type) where
  /-- The saved views of a page, if there are any. -/
  load : ρ → Page → Except RepositoryError (Option PageViews)
  /-- Saves a view and answers its id. -/
  save : ρ → Page → View → Except RepositoryError (UInt32 × Commit ρ)
  /-- Deletes the view with an id. -/
  delete : ρ → Page → UInt32 → Except RepositoryError (Commit ρ)

namespace SavedViews

/-- The greatest id in use. -/
def greatestId? (views : List View) : Option UInt32 := (views.filterMap (·.id)).max?

/-- The next free id: one past the greatest, and one if there is none. -/
def nextId (views : List View) : UInt32 :=
  match greatestId? views with
  | some id => id + 1
  | none => 1

/-- The id that a view is saved under. -/
def idFor (views : List View) (v : View) : UInt32 := v.id.getD (nextId views)

/-- Puts a view under an id: in place of the first that has it, else at the end. -/
def put (id : UInt32) (v : View) : List View → List View
  | [] => [{ v with id := some id }]
  | w :: rest => if w.id = some id then { v with id := some id } :: rest else w :: put id v rest

/-- Saves a view among others. -/
def save (views : List View) (v : View) : List View := put (idFor views v) v views

/-- Removes the first view with an id, if there is one. -/
def remove? (id : UInt32) : List View → Option (List View)
  | [] => none
  | v :: rest => if v.id = some id then some rest else (remove? id rest).map (v :: ·)

end SavedViews

end TableView
