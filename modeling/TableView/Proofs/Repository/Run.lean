import TableView.Repository.Basic

/-!
# Runs of a repository

A run saves and deletes views, on any pages and in any order. A call that fails
leaves the repository as it was, so what every successful save and every successful
delete keep holds after all runs (`Repository.run_keeps`). What a caller sees of a
run in which views are loaded as well are the answers (`Repository.answers`).
-/

namespace TableView

/-- What changes a repository. -/
inductive Change where
  | save (page : Page) (view : View)
  | delete (page : Page) (id : UInt32)

/-- The page that a change is made on. -/
def Change.page : Change → Page
  | save page _ => page
  | delete page _ => page

namespace Repository

variable {ρ : Type} [Repository ρ]

/-- The repository after a change, which is the same one if the change fails. -/
def perform (r : ρ) : Change → ρ
  | .save page v =>
      match Repository.save r page v with
      | .ok (_, commit) => commit.repository
      | .error _ => r
  | .delete page id =>
      match Repository.delete r page id with
      | .ok commit => commit.repository
      | .error _ => r

/-- The repository after several changes. -/
def run (r : ρ) (changes : List Change) : ρ := changes.foldl perform r

@[simp] theorem run_nil (r : ρ) : run r [] = r := rfl

@[simp] theorem run_cons (r : ρ) (change : Change) (rest : List Change) :
    run r (change :: rest) = run (perform r change) rest := rfl

/-- A property that every successful change keeps is kept by every change. -/
theorem perform_keeps {P : ρ → Prop}
    (save : ∀ {r page v id commit}, P r → Repository.save r page v = .ok (id, commit) →
      P commit.repository)
    (delete : ∀ {r page id commit}, P r → Repository.delete r page id = .ok commit →
      P commit.repository)
    {r : ρ} (held : P r) (change : Change) : P (perform r change) := by
  cases change with
  | save page v =>
      rw [perform]
      cases saved : Repository.save r page v with
      | ok answer => exact save held saved
      | error error => exact held
  | delete page id =>
      rw [perform]
      cases deleted : Repository.delete r page id with
      | ok commit => exact delete held deleted
      | error error => exact held

theorem run_keeps {P : ρ → Prop}
    (save : ∀ {r page v id commit}, P r → Repository.save r page v = .ok (id, commit) →
      P commit.repository)
    (delete : ∀ {r page id commit}, P r → Repository.delete r page id = .ok commit →
      P commit.repository)
    {r : ρ} (held : P r) (changes : List Change) : P (run r changes) := by
  induction changes generalizing r with
  | nil => exact held
  | cons change rest ih => exact ih (perform_keeps save delete held change)

end Repository

/-- What can be asked of a repository: to load the views of a page, or to change them. -/
inductive Call where
  | load (page : Page)
  | change (change : Change)

/-- What a repository answers to a call. -/
inductive Answer where
  | loaded (result : Except RepositoryError (Option PageViews))
  | saved (result : Except RepositoryError UInt32)
  | deleted (result : Except RepositoryError Unit)

namespace Repository

variable {ρ : Type} [Repository ρ]

/-- The answer to a call. -/
def answer (r : ρ) : Call → Answer
  | .load page => .loaded (Repository.load r page)
  | .change (.save page v) => .saved ((Repository.save r page v).map (·.1))
  | .change (.delete page id) => .deleted ((Repository.delete r page id).map fun _ => ())

/-- The repository after a call. Loading leaves it as it is. -/
def after (r : ρ) : Call → ρ
  | .load _ => r
  | .change change => perform r change

/-- The answers to several calls, one after the other. -/
def answers (r : ρ) : List Call → List Answer
  | [] => []
  | call :: rest => answer r call :: answers (after r call) rest

end Repository

end TableView
