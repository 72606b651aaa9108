import TableView.Proofs.Repository.Mirror

/-!
# What a repository stores

The views that are stored on a page are those that a load of the page answers. A lawful
repository (`LawfulRepository`) saves a view by putting it among them and deletes one by
taking it from them, as far as the page can be read afterwards, and changes no other page.
The repository in memory is lawful, and so is that of files, whatever its files are. An id
that is in use therefore stays in use until it is deleted (`Repository.Uses.run`).
-/

namespace TableView

namespace Repository

variable {ρ : Type} [Repository ρ]

/-- The views that are stored on a page, if it can be read. -/
def stored (r : ρ) (page : Page) : Except RepositoryError (List View) :=
  (Repository.load r page).map fun views? => (views?.map (·.views)).getD []

end Repository

open Repository

/-- A repository that changes what it stores as a list of views is changed. A page that
cannot be read is not changed, and a changed page need not be readable. -/
class LawfulRepository (ρ : Type) [Repository ρ] : Prop where
  save_ok : ∀ {r : ρ} {page v id commit}, Repository.save r page v = .ok (id, commit) →
    ∃ views, stored r page = .ok views ∧ id = SavedViews.idFor views v ∧
      ∀ after, stored commit.repository page = .ok after → after = SavedViews.put id v views
  delete_ok : ∀ {r : ρ} {page id commit}, Repository.delete r page id = .ok commit →
    ∃ views rest, stored r page = .ok views ∧ SavedViews.remove? id views = some rest ∧
      ∀ after, stored commit.repository page = .ok after → after = rest
  save_elsewhere : ∀ {r : ρ} {page other v id commit}, other ≠ page →
    Repository.save r page v = .ok (id, commit) →
    Repository.load commit.repository other = Repository.load r other
  delete_elsewhere : ∀ {r : ρ} {page other id commit}, other ≠ page →
    Repository.delete r page id = .ok commit →
    Repository.load commit.repository other = Repository.load r other

namespace MemoryRepository

variable {m : MemoryRepository} {page : Page}

/-- Every page can be read. -/
theorem stored_eq (m : MemoryRepository) (page : Page) : stored m page = .ok (m.pages page) := by
  cases views : m.pages page <;> simp [stored, Repository.load, load, views, Except.map]

theorem load_setViews_of_ne (m : MemoryRepository) {page other : Page} (different : other ≠ page)
    (views : List View) : (m.setViews page views).load other = m.load other := by
  rw [load, load, pages_setViews_of_ne m different]

instance : LawfulRepository MemoryRepository where
  save_ok := by
    intro m page v id commit saved
    cases saved
    refine ⟨m.pages page, stored_eq m page, rfl, ?_⟩
    intro after read
    rw [stored_eq, save_eq_setViews, pages_setViews_self, Except.ok.injEq] at read
    exact read.symm
  delete_ok := by
    intro m page id commit deleted
    cases removed : SavedViews.remove? id (m.pages page) with
    | none =>
        rw [delete_of_missing removed] at deleted
        cases deleted
    | some rest =>
        rw [delete_of_found removed, Except.ok.injEq] at deleted
        subst deleted
        refine ⟨m.pages page, rest, stored_eq m page, removed, ?_⟩
        intro after read
        rw [stored_eq, pages_setViews_self, Except.ok.injEq] at read
        exact read.symm
  save_elsewhere := by
    intro m page other v id commit different saved
    cases saved
    exact congrArg Except.ok (m.load_setViews_of_ne different _)
  delete_elsewhere := by
    intro m page other id commit different deleted
    cases removed : SavedViews.remove? id (m.pages page) with
    | none =>
        rw [delete_of_missing removed] at deleted
        cases deleted
    | some rest =>
        rw [delete_of_found removed, Except.ok.injEq] at deleted
        subst deleted
        exact congrArg Except.ok (m.load_setViews_of_ne different rest)

end MemoryRepository

namespace FileRepository

variable {r : FileRepository} {page other : Page} {p : PageViews} {stored? : Option PageViews}
variable {v : View} {id : UInt32} {commit : Commit FileRepository}

/-- The views that are stored on a page are those in its file. -/
theorem stored_eq (r : FileRepository) (page : Page) :
    stored r page = (r.read page).map fun p? => (p?.map (·.views)).getD [] := by
  have loaded : Repository.load r page = (r.read page).map (·.filter (!·.views.isEmpty)) := rfl
  rw [stored, loaded]
  cases r.read page with
  | error error => rfl
  | ok p? =>
      cases p? with
      | none => rfl
      | some p =>
          cases views : p.views <;> simp [Except.map, Option.filter, views]

theorem stored_of_read (read : r.read page = .ok stored?) :
    stored r page = .ok (stored?.getD ⟨page, [], 0⟩).views := by
  rw [stored_eq, read]
  cases stored? <;> rfl

/-- A save writes the views that are stored on the page, and with them the saved one. -/
theorem save_eq_ok (saved : r.save page v = .ok (id, commit)) :
    ∃ p : PageViews, p.page = page ∧ stored r page = .ok p.views ∧
      id = SavedViews.idFor p.views v ∧
      r.write { p with views := SavedViews.put id v p.views } = .ok commit := by
  cases read : r.read page with
  | error error => simp [FileRepository.save, read, bind, Except.bind] at saved
  | ok stored? =>
      have own : (stored?.getD ⟨page, [], 0⟩).page = page := by
        cases stored? with
        | none => rfl
        | some p => exact page_of_read read
      refine ⟨stored?.getD ⟨page, [], 0⟩, own, stored_of_read read, ?_⟩
      simp only [FileRepository.save, read, bind, Except.bind] at saved
      split at saved
      next => cases saved
      next written =>
        cases saved
        exact ⟨rfl, written⟩

theorem delete_eq_ok (deleted : r.delete page id = .ok commit) :
    ∃ (p : PageViews) (rest : List View) (selected : Nat), p.page = page ∧
      stored r page = .ok p.views ∧ SavedViews.remove? id p.views = some rest ∧
      r.write { p with views := rest, selected := selected } = .ok commit := by
  cases read : r.read page with
  | error error => simp [FileRepository.delete, read, bind, Except.bind] at deleted
  | ok stored? =>
      cases stored? with
      | none => simp [FileRepository.delete, read, bind, Except.bind] at deleted
      | some p =>
          simp only [FileRepository.delete, read, bind, Except.bind] at deleted
          split at deleted
          next => cases deleted
          next rest removed =>
            exact ⟨p, rest, _, page_of_read read, stored_of_read read, removed, deleted⟩

theorem stored_of_written (written : r.write p = .ok commit) {after : List View}
    (read : stored commit.repository p.page = .ok after) : after = p.views := by
  rw [stored_eq] at read
  cases file : commit.repository.read p.page with
  | error error => simp [file, Except.map] at read
  | ok stored? =>
      rw [read_of_written written file] at file
      rw [file] at read
      cases read
      rfl

theorem load_of_written_elsewhere (written : r.write p = .ok commit) (different : other ≠ p.page) :
    Repository.load commit.repository other = Repository.load r other := by
  show commit.repository.load other = r.load other
  rw [load, load, read_of_written_elsewhere written different]

instance : LawfulRepository FileRepository where
  save_ok := by
    intro r page v id commit saved
    obtain ⟨p, rfl, read, given, written⟩ := save_eq_ok saved
    exact ⟨p.views, read, given, fun after again => stored_of_written written again⟩
  delete_ok := by
    intro r page id commit deleted
    obtain ⟨p, rest, selected, rfl, read, removed, written⟩ := delete_eq_ok deleted
    exact ⟨p.views, rest, read, removed, fun after again => stored_of_written written again⟩
  save_elsewhere := by
    intro r page other v id commit different saved
    obtain ⟨p, rfl, -, -, written⟩ := save_eq_ok saved
    exact load_of_written_elsewhere written different
  delete_elsewhere := by
    intro r page other id commit different deleted
    obtain ⟨p, rest, selected, rfl, -, -, written⟩ := delete_eq_ok deleted
    exact load_of_written_elsewhere written different

theorem Mirrors.stored {m : MemoryRepository} (mirrors : Mirrors r m) (page : Page) :
    stored r page = .ok (m.pages page) := by
  have loaded : Repository.load r page = Repository.load m page := mirrors.load page
  rw [Repository.stored, loaded]
  exact m.stored_eq page

end FileRepository

namespace Repository

variable {ρ : Type} [Repository ρ] {r : ρ} {page : Page} {id : UInt32}

/-- Whether an id is in use on a page, if that can be read. -/
def Uses (r : ρ) (page : Page) (id : UInt32) : Prop :=
  ∀ views, stored r page = .ok views → SavedViews.Uses views id

theorem Uses.of_stored {next : ρ} (uses : Uses r page id)
    (same : Repository.load next page = Repository.load r page) : Uses next page id := by
  intro views read
  rw [stored, same] at read
  exact uses views read

variable [LawfulRepository ρ]

/-- Only deleting its view can put an id out of use. -/
theorem Uses.perform (uses : Uses r page id) {change : Change}
    (other : change ≠ .delete page id) : Uses (perform r change) page id := by
  cases change with
  | save there v =>
      rw [Repository.perform]
      cases saved : Repository.save r there v with
      | error error => exact uses
      | ok answer =>
          by_cases here : page = there
          · subst here
            intro after again
            obtain ⟨views, read, -, changed⟩ := LawfulRepository.save_ok saved
            rw [changed after again]
            exact SavedViews.uses_put_iff.2 (.inr (uses views read))
          · exact uses.of_stored (LawfulRepository.save_elsewhere here saved)
  | delete there deletedId =>
      rw [Repository.perform]
      cases deleted : Repository.delete r there deletedId with
      | error error => exact uses
      | ok commit =>
          by_cases here : page = there
          · subst here
            intro after again
            obtain ⟨views, rest, read, removed, changed⟩ := LawfulRepository.delete_ok deleted
            rw [changed after again]
            refine (uses views read).remove? ?_ removed
            rintro rfl
            exact other rfl
          · exact uses.of_stored (LawfulRepository.delete_elsewhere here deleted)

/-- An id stays in use over every run that does not delete its view. -/
theorem Uses.run (uses : Uses r page id) {changes : List Change}
    (kept : Change.delete page id ∉ changes) : Uses (run r changes) page id := by
  induction changes generalizing r with
  | nil => exact uses
  | cons change rest ih =>
      obtain ⟨first, later⟩ := List.ne_and_not_mem_of_not_mem_cons kept
      exact ih (uses.perform (Ne.symm first)) later

end Repository

end TableView
