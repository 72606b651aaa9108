import TableView.Definition.View
import TableView.Json.Reader
import TableView.Json.Writer
import TableView.Repository.Basic

/-!
# The repository of files

Keeps the views of every page in one file of a folder, as indented JSON. Every
operation reads the file of its page first, and writes it only when all else has
succeeded, so a failed operation changes no file.
-/

namespace TableView

/-- What stands in the place of a page's file. -/
inductive PageFile where
  | absent
  | text (content : String)
  /-- A file whose bytes are no text. -/
  | undecodable
  /-- A folder. -/
  | folder
deriving DecidableEq

/-- A folder with a file for every page. It is created when a page is first written, which
fails if it is blocked by something that is no folder. -/
structure FileRepository where
  location : String
  isBlocked : Bool
  files : Page → PageFile

namespace FileRepository

/-- The repository whose folder does not exist yet. -/
def empty (location : String) : FileRepository := ⟨location, false, fun _ => .absent⟩

/-- The name of a page's file. -/
def fileName (page : Page) : String := page.name ++ ".json"

/-- The path of a page's file. -/
def path (r : FileRepository) (page : Page) : String := r.location ++ "/" ++ fileName page

variable [Json.NumberReader]

/-- The views that a text spells, which must be those of a page. -/
def decode (r : FileRepository) (page : Page) (text : String) : Except RepositoryError PageViews :=
  match (Json.read? text).bind (PageViews.ofJson? .direct) with
  | none => .error .json
  | some views =>
    if views.page = page then .ok views
    else .error (.invalidFormat (r.path page ++ " holds views for page " ++ views.page.name ++
      ", expected " ++ page.name))

/-- Reads the file of a page, if there is one. -/
def read (r : FileRepository) (page : Page) : Except RepositoryError (Option PageViews) :=
  if r.isBlocked then .ok none
  else match r.files page with
    | .absent => .ok none
    | .text content => (r.decode page content).map some
    | .undecodable => .error .io
    | .folder => .error .io

/-- Writes the file of a page. -/
def write (r : FileRepository) (views : PageViews) :
    Except RepositoryError (Commit FileRepository) :=
  if r.isBlocked ∨ r.files views.page = .folder then .error .io
  else .ok ⟨{ r with files := Page.update r.files views.page (.text views.toJson.pretty) },
    [⟨.debug, "Wrote " ++ toString views.views.length ++ " view(s) for " ++ views.page.name ++
      " to " ++ r.path views.page⟩]⟩

/-- The saved views of a page, if there are any. -/
def load (r : FileRepository) (page : Page) : Except RepositoryError (Option PageViews) :=
  (r.read page).map fun views? => views?.filter (!·.views.isEmpty)

/-- Saves a view on a page. The selection stays as it is. -/
def save (r : FileRepository) (page : Page) (v : View) :
    Except RepositoryError (UInt32 × Commit FileRepository) := do
  let stored := (← r.read page).getD ⟨page, [], 0⟩
  let commit ← r.write { stored with views := SavedViews.save stored.views v }
  .ok (SavedViews.idFor stored.views v, commit)

/-- Deletes a view from a page. A selection beyond the views that are left becomes the first. -/
def delete (r : FileRepository) (page : Page) (id : UInt32) :
    Except RepositoryError (Commit FileRepository) := do
  match ← r.read page with
  | none => .error (.viewNotFound page id)
  | some stored =>
    match SavedViews.remove? id stored.views with
    | none => .error (.viewNotFound page id)
    | some rest =>
      r.write { stored with
        views := rest
        selected := if rest.length ≤ stored.selected then 0 else stored.selected }

instance : Repository FileRepository where
  load := load
  save := save
  delete := delete

end FileRepository

end TableView
