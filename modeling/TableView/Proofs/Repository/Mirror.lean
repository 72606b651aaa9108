import TableView.Proofs.Repository.Files
import TableView.Proofs.Repository.Memory

/-!
# Files that mirror a memory

A repository of files mirrors one in memory if the file of every page spells the views
that the other has on it, or is missing where there are none. Calls that save storable
views keep this, and mirroring repositories answer every call alike; so no sequence of
such calls tells a new folder from a new memory (`FileRepository.answers_eq_memory`).
-/

namespace TableView

/-- Whether a call puts only storable views into the repository. -/
def Call.IsStorable : Call → Prop
  | .change (.save _ v) => v.isStorable
  | _ => True

namespace FileRepository

variable {f : FileRepository} {m : MemoryRepository} {page : Page} {views : List View} {v : View}

/-- Whether the files spell what the memory holds. -/
structure Mirrors (f : FileRepository) (m : MemoryRepository) : Prop where
  open_ : f.isBlocked = false
  files : ∀ page, (f.files page = .absent ∧ m.pages page = []) ∨
    f.files page = .text (textOf page (m.pages page))
  storable : ∀ page, (m.pages page).all (·.isStorable)

theorem mirrors_empty (location : String) : Mirrors (empty location) .empty :=
  ⟨rfl, fun _ => .inl ⟨rfl, rfl⟩, fun _ => rfl⟩

theorem Mirrors.setViews (mirrors : Mirrors f m) (page : Page)
    (storable : views.all (·.isStorable)) :
    Mirrors (f.withViews page views) (m.setViews page views) := by
  refine ⟨mirrors.open_, ?_, ?_⟩
  · intro other
    by_cases here : other = page
    · rw [here, files_withViews_self, MemoryRepository.pages_setViews_self]
      exact .inr rfl
    · rw [files_withViews_of_ne f here, MemoryRepository.pages_setViews_of_ne m here]
      exact mirrors.files other
  · intro other
    by_cases here : other = page
    · rwa [here, MemoryRepository.pages_setViews_self]
    · rw [MemoryRepository.pages_setViews_of_ne m here]
      exact mirrors.storable other

theorem Mirrors.read (mirrors : Mirrors f m) (page : Page) :
    ∃ stored?, f.read page = .ok stored? ∧
      stored?.getD ⟨page, [], 0⟩ = ⟨page, m.pages page, 0⟩ := by
  obtain ⟨absent, nothing⟩ | written := mirrors.files page
  · refine ⟨none, read_of_absent mirrors.open_ absent, ?_⟩
    rw [nothing]
    rfl
  · refine ⟨some ⟨page, m.pages page, 0⟩, ?_, rfl⟩
    rw [read_of_text_eq_ite mirrors.open_ written, if_pos (mirrors.storable page)]

theorem Mirrors.load (mirrors : Mirrors f m) (page : Page) :
    f.load page = .ok (m.load page) := by
  obtain ⟨stored?, read, stored⟩ := mirrors.read page
  rw [FileRepository.load, read, MemoryRepository.load]
  cases stored? with
  | none =>
      have nothing : m.pages page = [] := (congrArg PageViews.views stored).symm
      simp only [nothing, Except.map, Option.filter_none, List.isEmpty_nil, if_true]
  | some p =>
      have same : p = ⟨page, m.pages page, 0⟩ := stored
      cases held : m.pages page <;> simp [Except.map, Option.filter, same, held]

theorem Mirrors.write (mirrors : Mirrors f m) (page : Page) (views : List View) :
    ∃ log, f.write ⟨page, views, 0⟩ = .ok ⟨f.withViews page views, log⟩ := by
  refine write_of_open mirrors.open_ ?_
  show f.files page ≠ .folder
  obtain ⟨absent, -⟩ | written := mirrors.files page
  · simp [absent]
  · simp [written]

theorem Mirrors.save (mirrors : Mirrors f m) (page : Page) (v : View) :
    ∃ log, f.save page v = .ok (SavedViews.idFor (m.pages page) v,
      ⟨f.withViews page (SavedViews.save (m.pages page) v), log⟩) := by
  obtain ⟨stored?, read, stored⟩ := mirrors.read page
  obtain ⟨log, written⟩ := mirrors.write page (SavedViews.save (m.pages page) v)
  refine ⟨log, ?_⟩
  simp only [FileRepository.save, read, bind, Except.bind, stored, written]

theorem Mirrors.delete_of_found (mirrors : Mirrors f m) {id : UInt32} {rest : List View}
    (removed : SavedViews.remove? id (m.pages page) = some rest) :
    ∃ log, f.delete page id = .ok ⟨f.withViews page rest, log⟩ := by
  obtain ⟨stored?, read, stored⟩ := mirrors.read page
  obtain ⟨log, written⟩ := mirrors.write page rest
  refine ⟨log, ?_⟩
  cases stored? with
  | none =>
      have nothing : m.pages page = [] := (congrArg PageViews.views stored).symm
      simp [nothing, SavedViews.remove?] at removed
  | some p =>
      have same : p = ⟨page, m.pages page, 0⟩ := stored
      simp only [FileRepository.delete, read, bind, Except.bind, same, removed, ite_self, written]

theorem Mirrors.delete_of_missing (mirrors : Mirrors f m) {id : UInt32}
    (missing : SavedViews.remove? id (m.pages page) = none) :
    f.delete page id = .error (.viewNotFound page id) := by
  obtain ⟨stored?, read, stored⟩ := mirrors.read page
  cases stored? with
  | none => simp only [FileRepository.delete, read, bind, Except.bind]
  | some p =>
      have same : p = ⟨page, m.pages page, 0⟩ := stored
      simp only [FileRepository.delete, read, bind, Except.bind, same, missing]

/-- Repositories of which one mirrors the other answer a call alike, and do so ever after. -/
theorem Mirrors.answer (mirrors : Mirrors f m) {call : Call} (storable : call.IsStorable) :
    Repository.answer f call = Repository.answer m call ∧
      Mirrors (Repository.after f call) (Repository.after m call) := by
  cases call with
  | load page => exact ⟨congrArg Answer.loaded (mirrors.load page), mirrors⟩
  | change change =>
      cases change with
      | save page v =>
          obtain ⟨log, saved⟩ := mirrors.save page v
          have saved : Repository.save f page v = _ := saved
          simp only [Repository.answer, Repository.after, Repository.perform, saved]
          refine ⟨rfl, mirrors.setViews page ?_⟩
          exact (SavedViews.all_isStorable_put (mirrors.storable page) _ v).trans storable
      | delete page id =>
          cases removed : SavedViews.remove? id (m.pages page) with
          | none =>
              have failed : Repository.delete f page id = _ := mirrors.delete_of_missing removed
              simp only [Repository.answer, Repository.after, Repository.perform, failed,
                MemoryRepository.delete_of_missing removed]
              exact ⟨rfl, mirrors⟩
          | some rest =>
              obtain ⟨log, deleted⟩ := mirrors.delete_of_found removed
              have deleted : Repository.delete f page id = _ := deleted
              simp only [Repository.answer, Repository.after, Repository.perform, deleted,
                MemoryRepository.delete_of_found removed]
              refine ⟨rfl, mirrors.setViews page ?_⟩
              rw [List.all_eq_true]
              intro v mem
              exact List.all_eq_true.1 (mirrors.storable page) v
                ((SavedViews.remove?_sublist removed).subset mem)

theorem Mirrors.run (mirrors : Mirrors f m) {changes : List Change}
    (storable : ∀ change ∈ changes, (Call.change change).IsStorable) :
    Mirrors (Repository.run f changes) (Repository.run m changes) := by
  induction changes generalizing f m with
  | nil => exact mirrors
  | cons change rest ih =>
      have next := (mirrors.answer (storable change List.mem_cons_self)).2
      exact ih next fun later mem => storable later (List.mem_cons_of_mem change mem)

theorem Mirrors.answers (mirrors : Mirrors f m) {calls : List Call}
    (storable : ∀ call ∈ calls, call.IsStorable) :
    Repository.answers f calls = Repository.answers m calls := by
  induction calls generalizing f m with
  | nil => rfl
  | cons call rest ih =>
      obtain ⟨same, next⟩ := mirrors.answer (storable call List.mem_cons_self)
      rw [Repository.answers, Repository.answers, same,
        ih next fun later mem => storable later (List.mem_cons_of_mem call mem)]

/-- No calls that save only storable views tell a new folder from a new memory. All of them
are answered as allowed: none fails but the deletion of a missing view. -/
theorem answers_eq_memory (location : String) (calls : List Call)
    (storable : ∀ call ∈ calls, call.IsStorable) :
    Repository.answers (empty location) calls = Repository.answers MemoryRepository.empty calls ∧
      List.Forall₂ Call.Allows calls (Repository.answers (empty location) calls) := by
  have same := (mirrors_empty location).answers storable
  refine ⟨same, ?_⟩
  rw [same]
  exact MemoryRepository.empty.answers_allowed calls

/-- A view with a nested filter is saved, saved again under the next id, and deleted twice;
then the other one is loaded and deleted. -/
theorem answers_eq_memory_peers :
    let v : View := { View.plain "Rich" Catalog.peersColumns with
      filter := .group .any [.clause ⟨"fee", .number (.equals (.zero true))⟩, .group .all []] }
    let calls : List Call :=
      [.change (.save .peers v), .change (.save .peers v), .change (.delete .peers 1),
        .change (.delete .peers 1), .load .peers, .change (.delete .peers 2), .load .peers]
    (∀ call ∈ calls, call.IsStorable) ∧
      Repository.answers (empty "views") calls =
        [.saved (.ok 1), .saved (.ok 2), .deleted (.ok ()),
          .deleted (.error (.viewNotFound .peers 1)),
          .loaded (.ok (some ⟨.peers, [{ v with id := some 2 }], 0⟩)), .deleted (.ok ()),
          .loaded (.ok none)] ∧
      List.Forall₂ Call.Allows calls (Repository.answers (empty "views") calls) := by
  intro v calls
  have storable : ∀ call ∈ calls, call.IsStorable := by
    have finite : v.isStorable = true := by decide
    simp [calls, Call.IsStorable, finite]
  obtain ⟨same, allowed⟩ := answers_eq_memory "views" calls storable
  exact ⟨storable, same.trans rfl, allowed⟩

end FileRepository

end TableView
