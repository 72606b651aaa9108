import TableView.Proofs.Edit.Fitting
import TableView.Proofs.Store.Tickets

/-!
# Whatever enters a store fitting stays so

Views enter a store in three ways: with the registration of a page, by an edit that adds one, and
by a load whose ticket is not stale. If all that enters fits the catalog of its page, then all
views of all pages do after every run. The default view of a page takes part in the invariant,
because a load that finds no views falls back to it.
-/

namespace TableView

/-- Whether what a request brings into a store fits: the catalog that it registers is sound, and
views and columns fit the catalog of the page that they enter. Of a stale load nothing enters. -/
def Request.IsFitting (s : Store) : Request → Prop
  | register catalog view => catalog.IsSound ∧ view.Fits catalog
  | dispatch page edit =>
    (∀ index column, edit = .inView index (.addColumn column) → column.IsDrawn) ∧
      ∀ view, edit = .addView view → ∀ state, s.pages page = some state → view.Fits state.catalog
  | beginLoad _ => True
  | completeLoad ticket result =>
    ∀ state, s.pages ticket.page = some state → ticket.generation = state.generation →
      ∀ loaded, result = .ok (some loaded) → ∀ v ∈ loaded.views, v.Fits state.catalog
  | @loadFrom _ _ repository page =>
    ∀ state, s.pages page = some state →
      ∀ loaded, Repository.load repository page = .ok (some loaded) →
        ∀ v ∈ loaded.views, v.Fits state.catalog
  | saveSelected _ _ => True

/-- Of the changes of a view only added columns bring anything. -/
theorem Request.isFitting_inView {s : Store} {page : Page} {index : Nat} {change : ViewEdit}
    (drawn : ∀ column, change = .addColumn column → column.IsDrawn) :
    (dispatch page (.inView index change)).IsFitting s := by
  constructor
  · rintro _ column ⟨⟩
    exact drawn column rfl
  · rintro _ ⟨⟩

/-- Whether a page has a sound catalog, which its views and its default view fit. -/
structure PageState.IsFitting (state : PageState) : Prop where
  sound : state.catalog.IsSound
  default : state.defaultView.Fits state.catalog
  views : ∀ v ∈ state.views.views, v.Fits state.catalog

namespace PageState.IsFitting

variable {state : PageState}

theorem registered {catalog : Catalog} {view : View} (sound : catalog.IsSound)
    (fits : view.Fits catalog) :
    IsFitting
      ⟨catalog, view.withLocked catalog, ⟨catalog.page, [view.withLocked catalog], 0⟩, 0⟩ where
  sound := sound
  default := fits.withLocked sound
  views v mem := by
    obtain rfl := List.mem_singleton.1 mem
    exact fits.withLocked sound

theorem withViews (h : state.IsFitting) {views : PageViews}
    (fits : ∀ v ∈ views.views, v.Fits state.catalog) :
    IsFitting { state with views := views } :=
  ⟨h.sound, h.default, fits⟩

theorem begun (h : state.IsFitting) :
    IsFitting { state with generation := state.generation + 1 } :=
  ⟨h.sound, h.default, h.views⟩

/-- The repair of loaded views that fit adds columns of the catalog, and falls back to the
default view. -/
theorem repair (h : state.IsFitting) (page : Page) {result : Option PageViews}
    (fits : ∀ loaded, result = some loaded → ∀ v ∈ loaded.views, v.Fits state.catalog) :
    ∀ v ∈ (Store.PageState.repair state page result).views, v.Fits state.catalog := by
  intro v mem
  cases result with
  | none =>
      obtain rfl := List.mem_singleton.1 mem
      exact h.default
  | some loaded =>
      obtain ⟨w, origin, rfl⟩ := List.mem_map.1 mem
      refine View.Fits.withLocked ?_ h.sound
      split at origin
      · obtain rfl := List.mem_singleton.1 origin
        exact h.default
      · exact fits loaded rfl w origin

end PageState.IsFitting

namespace Store

variable {s : Store} {page : Page}

/-- Whether every page of a store is fitting. -/
def IsFitting (s : Store) : Prop := s.Everywhere fun _ state => state.IsFitting

theorem IsFitting.dispatch (fitting : s.IsFitting) {edit : Edit}
    (brings : (Request.dispatch page edit).IsFitting s) :
    (s.dispatch page edit).store.IsFitting := by
  obtain ⟨drawn, added⟩ := brings
  obtain same | ⟨state, views, found, applied, changed⟩ := dispatch_cases s page edit
  · rwa [same]
  · rw [changed]
    have here := fitting page state found
    exact fitting.set (here.withViews (PageViews.apply_fits here.sound here.views drawn
      (fun view asked => added view asked state found) applied))

theorem IsFitting.completeLoad (fitting : s.IsFitting) {ticket : Ticket}
    {result : Except RepositoryError (Option PageViews)}
    (brings : (Request.completeLoad ticket result).IsFitting s) :
    (s.completeLoad ticket result).store.IsFitting := by
  obtain same | ⟨state, loaded, found, answer, changed⟩ := completeLoad_cases s ticket result
  · rwa [same]
  · by_cases newest : ticket.generation = state.generation
    · rw [changed]
      have here := fitting ticket.page state found
      refine fitting.set (here.withViews (here.repair ticket.page ?_))
      intro views some
      exact brings state found newest views (by rw [answer, some])
    · rwa [((completeLoad_stale_iff found).2 newest result).2]

theorem perform_isFitting (fitting : s.IsFitting) {request : Request}
    (brings : request.IsFitting s) : (s.perform request).IsFitting := by
  cases request with
  | register catalog view => exact fitting.set (.registered brings.1 brings.2)
  | dispatch page edit => exact fitting.dispatch brings
  | beginLoad page =>
      rw [perform]
      cases found : s.pages page with
      | none => rwa [beginLoad_of_unregistered found]
      | some state =>
          rw [beginLoad_of_registered found]
          exact fitting.set (fitting page state found).begun
  | completeLoad ticket result => exact fitting.completeLoad brings
  | loadFrom repository page =>
      rw [perform]
      cases found : s.pages page with
      | none => rwa [loadFrom_of_unregistered repository found]
      | some state =>
          rw [loadFrom_of_registered repository found]
          refine IsFitting.completeLoad (fitting.set (fitting page state found).begun) ?_
          intro begun here _
          rw [pages_set_self] at here
          cases here
          exact brings state found
  | saveSelected repository page =>
      rw [perform]
      obtain same | ⟨index, id, changed⟩ := saveSelected_cases s repository page
      · rwa [same]
      · rw [changed]
        refine fitting.dispatch (Request.isFitting_inView ?_)
        rintro _ ⟨⟩

/-- Whether each request of a run brings only what fits, in the store that it meets. -/
def RunFits (s : Store) : List Request → Prop
  | [] => True
  | request :: rest => request.IsFitting s ∧ (s.perform request).RunFits rest

theorem run_isFitting {requests : List Request} (fitting : s.IsFitting)
    (brings : s.RunFits requests) : (s.run requests).IsFitting := by
  induction requests generalizing s with
  | nil => exact fitting
  | cons request rest ih => exact ih (perform_isFitting fitting brings.1) brings.2

/-- If all catalogs are sound and all that enters a store fits the catalog of its page, then
after every run from a store without pages, each view of each page shows no key twice, only keys
of the page's catalog, and each column in a style that can draw its values. -/
theorem run_fits (layout : Layout) (requests : List Request)
    (brings : (empty layout).RunFits requests) (page : Page) (state : PageState)
    (registered : ((empty layout).run requests).pages page = some state) :
    ∀ v ∈ state.views.views, (v.columns.map (·.key)).Nodup ∧
      (∀ column ∈ v.columns, ∃ own ∈ state.catalog.columns, own.key = column.key) ∧
      ∀ column ∈ v.columns, column.style.draws column.kind = true := by
  intro v mem
  have fitting : ((empty layout).run requests).IsFitting :=
    run_isFitting (everywhere_empty layout _) brings
  have fits := (fitting page state registered).views v mem
  exact ⟨fits.distinct, fits.known, fits.drawn⟩

/-- The page of peers after a column was taken out and put in again, and two loads of which the
stale one brought a view that shows a key twice and the other one a view of a single column. -/
theorem run_fits_peers :
    let status := Column.plain "connectionStatus" "Status" .text .tag
    let requests : List Request :=
      [.register .peers (.plain "All" Catalog.peersColumns),
        .dispatch .peers (.inView 0 (.deleteColumn 1)),
        .dispatch .peers (.inView 0 (.addColumn (.plain "pubKey" "Key" .text .text))),
        .dispatch .peers (.addView (.plain "Mine" [status])),
        .beginLoad .peers, .beginLoad .peers,
        .completeLoad ⟨.peers, 1⟩ (.ok (some ⟨.peers, [.plain "Stale" [status, status]], 0⟩)),
        .completeLoad ⟨.peers, 2⟩ (.ok (some ⟨.peers, [.plain "Fresh" [status]], 0⟩))]
    let s := (empty .standard).run requests
    (empty .standard).RunFits requests ∧ ∃ state, s.pages .peers = some state ∧
      ∀ v ∈ state.views.views, (v.columns.map (·.key)).Nodup ∧
        (∀ column ∈ v.columns, ∃ own ∈ state.catalog.columns, own.key = column.key) ∧
        ∀ column ∈ v.columns, column.style.draws column.kind = true := by
  intro status requests s
  have brings : (empty .standard).RunFits requests := by
    refine ⟨⟨by decide, by decide⟩, Request.isFitting_inView ?_, Request.isFitting_inView ?_,
      ⟨?_, ?_⟩, trivial, trivial, ?_, ?_, trivial⟩
    · rintro _ ⟨⟩
    · rintro column ⟨⟩
      decide
    · rintro _ _ ⟨⟩
    · rintro view ⟨⟩ state here
      cases here
      decide
    · intro state here newest
      cases here
      cases newest
    · rintro state here - loaded ⟨⟩
      cases here
      decide
  exact ⟨brings, _, rfl, run_fits .standard requests brings .peers _ rfl⟩

end Store

end TableView
