import TableView.Store

/-!
# Runs of a store

A run makes a list of requests of a store, one after the other and in any order.
Registering a page starts it afresh; every other request edits the views of one
page, begins a load of it or completes one, or leaves the store alone. A property
of page states is therefore kept by all requests as soon as these three steps keep
it (`Everywhere.perform`).

A repository takes part in a request by its answer only, so each request brings a
repository of its own, and nothing is assumed about what it answers.
-/

namespace TableView

/-- What can be asked of a store. -/
inductive Request : Type 1 where
  | register (catalog : Catalog) (view : View)
  | dispatch (page : Page) (edit : Edit)
  | beginLoad (page : Page)
  | completeLoad (ticket : Ticket) (result : Except RepositoryError (Option PageViews))
  | loadFrom {ρ : Type} [Repository ρ] (repository : ρ) (page : Page)
  | saveSelected {ρ : Type} [Repository ρ] (repository : ρ) (page : Page)

namespace Request

/-- Whether a request registers a page. -/
def Registers (page : Page) : Request → Prop
  | register catalog _ => catalog.page = page
  | _ => False

/-- Whether a request begins a load of a page. -/
def Begins (page : Page) : Request → Prop
  | beginLoad p => p = page
  | loadFrom _ p => p = page
  | _ => False

/-- Whether a request may apply an edit to the views of a page. -/
def MayApply (edit : Edit) : Request → Prop
  | dispatch _ e => e = edit
  | saveSelected _ _ => ∃ index id, edit = .inView index (.setId id)
  | _ => False

/-- Whether a request may bring loaded views, or the news that there are none. -/
def MayDeliver (loaded : Option PageViews) : Request → Prop
  | completeLoad _ result => result = .ok loaded
  | @loadFrom _ _ repository page => Repository.load repository page = .ok loaded
  | _ => False

end Request

namespace Store

/-- The store after a request, whatever the answer was. -/
def perform (s : Store) : Request → Store
  | .register catalog view => s.register catalog view
  | .dispatch page edit => (s.dispatch page edit).store
  | .beginLoad page => (s.beginLoad page).store
  | .completeLoad ticket result => (s.completeLoad ticket result).store
  | @Request.loadFrom _ _ repository page => (s.loadFrom repository page).store
  | @Request.saveSelected _ _ repository page => (s.saveSelected repository page).1.store

/-- The store after several requests. -/
def run (s : Store) (requests : List Request) : Store := requests.foldl perform s

@[simp] theorem run_nil (s : Store) : s.run [] = s := rfl

@[simp] theorem run_cons (s : Store) (request : Request) (rest : List Request) :
    s.run (request :: rest) = (s.perform request).run rest := rfl

theorem run_append (s : Store) (first second : List Request) :
    s.run (first ++ second) = (s.run first).run second :=
  List.foldl_append

variable {s : Store} {page : Page} {state : PageState}

theorem set_eq_self (registered : s.pages page = some state) : s.set page state = s := by
  rw [set, Page.update_eq_self registered]

theorem selectedView?_of_registered (registered : s.pages page = some state) :
    s.selectedView? page = state.views.selectedView? := by
  simp only [selectedView?, views?, registered, Option.map_some, Option.bind_some]

theorem render_of_selected (registered : s.pages page = some state) {v : View}
    (selected : state.views.selectedView? = some v) (records : List Record) :
    s.render page records = .ok ((s.renderer state).render v records) := by
  have found : s.page page = .ok state := by simp only [Store.page, registered]
  have shown : PageState.shown state = .ok v := by simp only [PageState.shown, selected]
  simp only [render, found, bind, Except.bind, shown]

theorem renderWith_of_selected (routine : SortRoutine Record)
    (registered : s.pages page = some state) {v : View}
    (selected : state.views.selectedView? = some v) (records : List Record) :
    s.renderWith routine page records =
      ((s.renderer state).renderWith routine v records).map .ok := by
  have found : s.page page = .ok state := by simp only [Store.page, registered]
  have shown : PageState.shown state = .ok v := by simp only [PageState.shown, selected]
  simp only [renderWith, found, shown]

/-- An edit changes the store only if it is accepted. -/
theorem dispatch_cases (s : Store) (page : Page) (edit : Edit) :
    (s.dispatch page edit).store = s ∨
      ∃ state views, s.pages page = some state ∧
        state.views.apply (some state.catalog) edit = .ok views ∧
        (s.dispatch page edit).store = s.set page { state with views := views } := by
  rw [dispatch]
  cases registered : s.pages page with
  | none => exact .inl rfl
  | some state =>
      cases applied : state.views.apply (some state.catalog) edit with
      | error error => exact .inl (by simp only [applied])
      | ok views => exact .inr ⟨state, views, rfl, applied, by simp only [applied]⟩

theorem beginLoad_of_registered (registered : s.pages page = some state) :
    s.beginLoad page = ⟨s.set page { state with generation := state.generation + 1 },
      .ok ⟨page, state.generation + 1⟩, []⟩ := by
  simp only [beginLoad, registered]

theorem beginLoad_of_unregistered (unregistered : s.pages page = none) :
    s.beginLoad page = ⟨s, .error (.unknownPage page), []⟩ := by
  simp only [beginLoad, unregistered]

/-- Completing a load changes the store only if its ticket is the newest and views, or
the news that there are none, have come back. -/
theorem completeLoad_cases (s : Store) (ticket : Ticket)
    (result : Except RepositoryError (Option PageViews)) :
    (s.completeLoad ticket result).store = s ∨
      ∃ state loaded, s.pages ticket.page = some state ∧ result = .ok loaded ∧
        (s.completeLoad ticket result).store =
          s.set ticket.page { state with views := PageState.repair state ticket.page loaded } := by
  rw [completeLoad]
  cases registered : s.pages ticket.page with
  | none => exact .inl rfl
  | some state =>
      by_cases stale : ticket.generation ≠ state.generation
      · exact .inl (by simp only [if_pos stale])
      · cases result with
        | error error => exact .inl (by simp only [if_neg stale])
        | ok loaded => exact .inr ⟨state, loaded, rfl, rfl, by simp only [if_neg stale]⟩

/-- Loading in one step is completing the load that was just begun. -/
theorem loadFrom_of_registered {ρ : Type} [Repository ρ] (repository : ρ)
    (registered : s.pages page = some state) :
    s.loadFrom repository page =
      (s.set page { state with generation := state.generation + 1 }).completeLoad
        ⟨page, state.generation + 1⟩ (Repository.load repository page) := by
  simp only [loadFrom, beginLoad_of_registered registered]

theorem loadFrom_of_unregistered {ρ : Type} [Repository ρ] (repository : ρ)
    (unregistered : s.pages page = none) : (s.loadFrom repository page).store = s := by
  simp only [loadFrom, beginLoad_of_unregistered unregistered]

/-- What saving changes about the store is the edit that records the id. -/
theorem saveSelected_cases {ρ : Type} [Repository ρ] (s : Store) (repository : ρ) (page : Page) :
    (s.saveSelected repository page).1.store = s ∨
      ∃ index id, (s.saveSelected repository page).1.store =
        (s.dispatch page (.inView index (.setId id))).store := by
  rw [saveSelected]
  cases (s.page page).bind PageState.shown with
  | error error => exact .inl rfl
  | ok v =>
      cases saved : Repository.save repository page v with
      | error error => exact .inl (by simp only [saved])
      | ok answer => exact .inr ⟨_, answer.1, by simp only [saved]; rfl⟩

/-- A request is a chain of at most two changes of page states: it registers a page, edits
the views of one, or begins a load and completes one. What these changes keep, the request
keeps. -/
theorem perform_keeps {Q : Store → Prop} (held : Q s) (request : Request)
    (registered : ∀ catalog view, request = .register catalog view → Q (s.register catalog view))
    (edited : ∀ page state edit views, request.MayApply edit → s.pages page = some state →
      state.views.apply (some state.catalog) edit = .ok views →
      Q (s.set page { state with views := views }))
    (begun : ∀ page state, s.pages page = some state →
      Q (s.set page { state with generation := state.generation + 1 }))
    (completed : ∀ (t : Store) page state loaded, Q t → request.MayDeliver loaded →
      t.pages page = some state →
      Q (t.set page { state with views := PageState.repair state page loaded })) :
    Q (s.perform request) := by
  have afterEdit : ∀ page edit, request.MayApply edit → Q (s.dispatch page edit).store := by
    intro page edit allowed
    obtain same | ⟨state, views, found, applied, changed⟩ := dispatch_cases s page edit
    · rwa [same]
    · rw [changed]
      exact edited page state edit views allowed found applied
  have afterAnswer : ∀ t : Store, Q t → ∀ ticket result,
      (∀ loaded, result = .ok loaded → request.MayDeliver loaded) →
      Q (t.completeLoad ticket result).store := by
    intro t before ticket result allowed
    obtain same | ⟨state, loaded, found, answer, changed⟩ := completeLoad_cases t ticket result
    · rwa [same]
    · rw [changed]
      exact completed t ticket.page state loaded before (allowed loaded answer) found
  cases request with
  | register catalog view => exact registered catalog view rfl
  | dispatch page edit => exact afterEdit page edit rfl
  | beginLoad page =>
      rw [perform]
      cases found : s.pages page with
      | none => rwa [beginLoad_of_unregistered found]
      | some state =>
          rw [beginLoad_of_registered found]
          exact begun page state found
  | completeLoad ticket result => exact afterAnswer s held ticket result fun _ answer => answer
  | loadFrom repository page =>
      rw [perform]
      cases found : s.pages page with
      | none => rwa [loadFrom_of_unregistered repository found]
      | some state =>
          rw [loadFrom_of_registered repository found]
          exact afterAnswer _ (begun page state found) _ _ fun _ answer => answer
  | saveSelected repository page =>
      rw [perform]
      obtain same | ⟨index, id, changed⟩ := saveSelected_cases s repository page
      · rwa [same]
      · rw [changed]
        exact afterEdit page _ ⟨index, id, rfl⟩

/-- Whether a property holds of what the store has for each registered page. -/
def Everywhere (s : Store) (P : Page → PageState → Prop) : Prop :=
  ∀ page state, s.pages page = some state → P page state

theorem everywhere_empty (layout : Layout) (P : Page → PageState → Prop) :
    (empty layout).Everywhere P := by
  intro page state registered
  cases registered

variable {P : Page → PageState → Prop}

theorem Everywhere.set (holds : s.Everywhere P) (new : P page state) :
    (s.set page state).Everywhere P := by
  intro other found registered
  by_cases same : other = page
  · subst same
    rw [pages_set_self] at registered
    cases registered
    exact new
  · rw [pages_set_of_ne s same] at registered
    exact holds other found registered

/-- A property of page states that accepted edits, begun loads and completed loads keep,
and that registered pages start with, is kept by every request. -/
theorem Everywhere.perform (holds : s.Everywhere P) (request : Request)
    (registered : ∀ catalog view, request = .register catalog view →
      P catalog.page ⟨catalog, view.withLocked catalog,
        ⟨catalog.page, [view.withLocked catalog], 0⟩, 0⟩)
    (edited : ∀ page state edit views, request.MayApply edit → P page state →
      state.views.apply (some state.catalog) edit = .ok views →
      P page { state with views := views })
    (begun : ∀ page state, P page state →
      P page { state with generation := state.generation + 1 })
    (completed : ∀ page state loaded, request.MayDeliver loaded → P page state →
      P page { state with views := PageState.repair state page loaded }) :
    (s.perform request).Everywhere P := by
  refine perform_keeps (Q := fun t => t.Everywhere P) holds request ?_ ?_ ?_ ?_
  · intro catalog view asked
    exact holds.set (registered catalog view asked)
  · intro page state edit views allowed found applied
    exact holds.set (edited page state edit views allowed (holds page state found) applied)
  · intro page state found
    exact holds.set (begun page state (holds page state found))
  · intro t page state loaded before allowed found
    exact before.set (completed page state loaded allowed (before page state found))

/-- What every request of a run keeps holds after the run. -/
theorem Everywhere.run (holds : s.Everywhere P) (requests : List Request)
    (kept : ∀ request ∈ requests, ∀ t : Store, t.Everywhere P → (t.perform request).Everywhere P) :
    (s.run requests).Everywhere P := by
  induction requests generalizing s with
  | nil => exact holds
  | cons request rest ih =>
      rw [run_cons]
      exact ih (kept request List.mem_cons_self s holds)
        fun r member => kept r (List.mem_cons_of_mem request member)

end Store

end TableView
