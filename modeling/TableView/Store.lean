import TableView.Edit.Apply
import TableView.Render
import TableView.Repository.Basic

/-!
# The store of views

Holds the views of every registered page. Edits are committed only if they are
accepted. A load is begun and completed in two steps; each begin makes the tickets
of earlier ones stale, so that an answer which arrives late cannot overwrite a
newer one.
-/

namespace TableView

/-- A request to load a page: only the newest of a page counts. -/
structure Ticket where
  page : Page
  generation : Nat
deriving DecidableEq

/-- What the store holds for a page. `generation` is that of the newest ticket. -/
structure PageState where
  catalog : Catalog
  defaultView : View
  views : PageViews
  generation : Nat

/-- The views of all registered pages and the layout they are rendered in. -/
structure Store where
  pages : Page → Option PageState
  layout : Layout

/-- Why a store did not do what it was asked. -/
inductive StoreError where
  | edit (error : EditError)
  | unknownPage (page : Page)
  | repository (error : RepositoryError)
deriving DecidableEq

/-- The text of an error, where it does not come from outside the library. -/
def StoreError.message? : StoreError → Option String
  | edit error => some error.message
  | unknownPage page => some ("Page " ++ page.name ++ " is not registered")
  | repository error => error.message?.map ("Persistence error: " ++ ·)

/-- What an operation of the store has led to: the store after it, its answer and what it
reports. -/
structure Outcome (α : Type) where
  store : Store
  answer : Except StoreError α
  log : List LogLine

namespace Store

/-- The store without pages. -/
def empty (layout : Layout) : Store := ⟨fun _ => none, layout⟩

/-- Changes what the store holds for a page. -/
def set (s : Store) (page : Page) (state : PageState) : Store :=
  { s with pages := Page.update s.pages page (some state) }

@[simp] theorem pages_set_self (s : Store) (page : Page) (state : PageState) :
    (s.set page state).pages page = some state := by
  simp [set]

@[simp] theorem pages_set_of_ne (s : Store) {page other : Page} (h : other ≠ page)
    (state : PageState) : (s.set page state).pages other = s.pages other := by
  simp [set, h]

@[simp] theorem layout_set (s : Store) (page : Page) (state : PageState) :
    (s.set page state).layout = s.layout := rfl

/-- Registers the page of a catalog with the view it shows before anything was loaded.
Registering a page again starts it afresh. -/
def register (s : Store) (catalog : Catalog) (view : View) : Store :=
  let view := view.withLocked catalog
  s.set catalog.page ⟨catalog, view, ⟨catalog.page, [view], 0⟩, 0⟩

/-- The views of a page. -/
def views? (s : Store) (page : Page) : Option PageViews := (s.pages page).map (·.views)

/-- The view that a page shows. -/
def selectedView? (s : Store) (page : Page) : Option View :=
  (s.views? page).bind (·.selectedView?)

/-- The catalog of a page. -/
def catalog? (s : Store) (page : Page) : Option Catalog := (s.pages page).map (·.catalog)

/-- What the store holds for a page that must be registered. -/
def page (s : Store) (page : Page) : Except StoreError PageState :=
  match s.pages page with
  | some state => .ok state
  | none => .error (.unknownPage page)

/-- The view that a registered page shows. -/
def PageState.shown (state : PageState) : Except StoreError View :=
  match state.views.selectedView? with
  | some v => .ok v
  | none => .error (.edit (.viewIndexOutOfRange state.views.selected state.views.views.length))

/-- How the views of a page are rendered. -/
def renderer (s : Store) (state : PageState) : Renderer := ⟨some state.catalog, s.layout⟩

/-- Renders the view that a page shows with a sorting routine. There is an answer unless the
routine gives no result. -/
def renderWith (routine : SortRoutine Record) (s : Store) (page : Page) (records : List Record) :
    Option (Except StoreError Rendered) :=
  match s.page page with
  | .error error => some (.error error)
  | .ok state =>
    match PageState.shown state with
    | .error error => some (.error error)
    | .ok v => ((s.renderer state).renderWith routine v records).map .ok

/-- Renders the view that a page shows, sorted with merge sort. -/
def render (s : Store) (page : Page) (records : List Record) : Except StoreError Rendered := do
  let state ← s.page page
  let v ← PageState.shown state
  .ok ((s.renderer state).render v records)

/-- What rendering the view that a page shows reports. -/
def renderLog (s : Store) (page : Page) (records : List Record) : List LogLine :=
  match s.pages page, s.selectedView? page with
  | some state, some v => (s.renderer state).log v records
  | _, _ => []

/-- Applies an edit to a page. A rejected edit leaves the store as it was. -/
def dispatch (s : Store) (page : Page) (edit : Edit) : Outcome Unit :=
  match s.pages page with
  | none => ⟨s, .error (.unknownPage page), []⟩
  | some state =>
    match state.views.apply (some state.catalog) edit with
    | .ok views => ⟨s.set page { state with views := views }, .ok (), []⟩
    | .error error =>
      ⟨s, .error (.edit error),
        [⟨.debug, "Rejected " ++ edit.name ++ " on " ++ page.name ++ ": " ++ error.message⟩]⟩

/-- Begins to load a page. Earlier tickets of the page become stale. -/
def beginLoad (s : Store) (page : Page) : Outcome Ticket :=
  match s.pages page with
  | none => ⟨s, .error (.unknownPage page), []⟩
  | some state =>
    let generation := state.generation + 1
    ⟨s.set page { state with generation := generation }, .ok ⟨page, generation⟩, []⟩

/-- Loaded views made fit for a page: at least one view, the page's own name, all locked
columns, and a selection that is in range. Nothing saved means the default view. -/
def PageState.repair (state : PageState) (page : Page) : Option PageViews → PageViews
  | none => ⟨page, [state.defaultView], 0⟩
  | some loaded =>
    let views := if loaded.views.isEmpty then [state.defaultView] else loaded.views
    ⟨page, views.map (·.withLocked state.catalog),
      if views.length ≤ loaded.selected then 0 else loaded.selected⟩

/-- Completes a load with what came back. A stale ticket is answered with false, whatever
came back, and changes nothing; neither does a failure. -/
def completeLoad (s : Store) (ticket : Ticket)
    (result : Except RepositoryError (Option PageViews)) : Outcome Bool :=
  match s.pages ticket.page with
  | none => ⟨s, .error (.unknownPage ticket.page), []⟩
  | some state =>
    if ticket.generation ≠ state.generation then
      ⟨s, .ok false,
        [⟨.info, "Ignoring stale view load for " ++ ticket.page.name ++ " (generation " ++
          toString ticket.generation ++ ", latest " ++ toString state.generation ++ ")"⟩]⟩
    else match result with
      | .error error => ⟨s, .error (.repository error), []⟩
      | .ok loaded =>
        let views := PageState.repair state ticket.page loaded
        let log := match loaded with
          | none => []
          | some _ => [⟨.debug, "Loaded " ++ toString views.views.length ++ " view(s) for " ++
              ticket.page.name⟩]
        ⟨s.set ticket.page { state with views := views }, .ok true, log⟩

/-- Loads a page from a repository in one step. -/
def loadFrom [Repository ρ] (s : Store) (repository : ρ) (page : Page) : Outcome Bool :=
  let begun := s.beginLoad page
  match begun.answer with
  | .error error => ⟨begun.store, .error error, begun.log⟩
  | .ok ticket => begun.store.completeLoad ticket (Repository.load repository page)

/-- Saves the view that a page shows and records the id it was given. The second component
is the repository after it. -/
def saveSelected [Repository ρ] (s : Store) (repository : ρ) (page : Page) : Outcome UInt32 × ρ :=
  match (s.page page).bind PageState.shown with
  | .error error => (⟨s, .error error, []⟩, repository)
  | .ok v =>
    match Repository.save repository page v with
    | .error error => (⟨s, .error (.repository error), []⟩, repository)
    | .ok (id, commit) =>
      let index := ((s.views? page).map (·.selected)).getD 0
      let marked := s.dispatch page (.inView index (.setId id))
      (⟨marked.store, marked.answer.map fun _ => id, commit.log ++ marked.log⟩, commit.repository)

end Store

end TableView
