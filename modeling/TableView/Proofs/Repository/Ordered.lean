import TableView.Proofs.Repository.Memory

/-!
# Saved views in order

A page of a repository in memory is a map from ids to views that keeps its order. Every view has
an id of its own, however the repository was come by (`MemoryRepository.Reachable`), and a change
touches one view (`Change.Effect`): a new one goes behind all others under an id above theirs, one
whose id is in use takes the place of the view that has it, and a deleted one is taken out. Nothing
checks that the ids are distinct; it follows from how the changes choose them.
-/

namespace TableView

/-- What a change does to the views of its page, each of which has an id of its own, and what it
answers. -/
inductive Change.Effect : Change → List View → Answer → List View → Prop where
  /-- A new view goes behind all others, under an id above theirs. -/
  | created {page : Page} {v : View} {views : List View} {id : UInt32} (new : v.id = none)
      (one_le : 1 ≤ id) (above : ∀ i, SavedViews.Uses views i → i < id) :
      Effect (.save page v) views (.saved (.ok id)) (views ++ [{ v with id := some id }])
  /-- A view whose id is not in use goes behind all others under this id. -/
  | added {page : Page} {v : View} {views : List View} {id : UInt32} (has : v.id = some id)
      (unused : ¬ SavedViews.Uses views id) :
      Effect (.save page v) views (.saved (.ok id)) (views ++ [v])
  /-- A view whose id is in use takes the place of the one that has it. -/
  | replaced {page : Page} {v w : View} {before after : List View} {id : UInt32}
      (has : v.id = some id) (had : w.id = some id) :
      Effect (.save page v) (before ++ w :: after) (.saved (.ok id)) (before ++ v :: after)
  | deleted {page : Page} {w : View} {before after : List View} {id : UInt32}
      (had : w.id = some id) :
      Effect (.delete page id) (before ++ w :: after) (.deleted (.ok ())) (before ++ after)
  | missing {page : Page} {views : List View} {id : UInt32} (unused : ¬ SavedViews.Uses views id) :
      Effect (.delete page id) views (.deleted (.error (.viewNotFound page id))) views

namespace SavedViews

variable {views : List View} {v : View}

/-- The next id is above all ids in use, and there is no lower one than one. -/
theorem one_le_nextId (below : ¬ Uses views 0xffffffff) : 1 ≤ nextId views := by
  obtain ⟨above, first | next⟩ := (nextId_eq_iff below).1 rfl
  · exact Nat.le_of_eq (congrArg UInt32.toNat first.symm)
  · have lt := above _ next
    grind

/-- A saved view goes to its place or behind all others. -/
theorem effect_save (below : ¬ Uses views 0xffffffff) (page : Page) (v : View) :
    (Change.save page v).Effect views (.saved (.ok (idFor views v))) (save views v) := by
  cases has : v.id with
  | none =>
      have given : idFor views v = nextId views := by rw [idFor, has, Option.getD_none]
      obtain ⟨above, -⟩ := (nextId_eq_iff below).1 rfl
      have unused : ¬ Uses views (nextId views) := by
        intro uses
        exact UInt32.lt_irrefl _ (above _ uses)
      rw [save, given, put_of_unused unused]
      exact .created has (one_le_nextId below) above
  | some id =>
      have given : idFor views v = id := by rw [idFor, has, Option.getD_some]
      have same : { v with id := some id } = v := by rw [← has]
      rw [save, given]
      by_cases uses : Uses views id
      · obtain ⟨before, w, after, rfl, had, unused⟩ := uses.exists_first
        rw [put_of_first rfl had unused, same]
        exact .replaced has had
      · rw [put_of_unused uses, same]
        exact .added has uses

end SavedViews

namespace MemoryRepository

variable {m : MemoryRepository} {page : Page}

/-- The repositories that arise from the empty one when pages are given views and when views are
saved and deleted. -/
inductive Reachable : MemoryRepository → Prop where
  | empty : Reachable .empty
  | withViews {m : MemoryRepository} (reachable : Reachable m) (page : Page) (views : List View) :
      Reachable (m.withViews page views)
  | perform {m : MemoryRepository} (reachable : Reachable m) (change : Change) :
      Reachable (Repository.perform m change)

/-- Giving a page several views is saving them one after the other. -/
theorem withViews_eq_run (m : MemoryRepository) (page : Page) (views : List View) :
    m.withViews page views = Repository.run m (views.map (.save page)) := by
  induction views generalizing m with
  | nil => exact congrArg MemoryRepository.mk (Page.update_eq_self rfl)
  | cons v rest ih =>
      have first : Repository.perform m (.save page v) = m.save page v := rfl
      have here : (m.save page v).pages page = SavedViews.save (m.pages page) v :=
        Page.update_self ..
      rw [List.map_cons, Repository.run_cons, first, ← ih, withViews, withViews, here, List.foldl_cons]
      refine congrArg MemoryRepository.mk (funext ?_)
      intro other
      by_cases same : other = page
      · rw [same, Page.update_self, Page.update_self]
      · rw [Page.update_of_ne _ same, Page.update_of_ne _ same]
        exact (pages_setViews_of_ne m same _).symm

/-- Whatever has led to a repository, saves and deletes lead to it. -/
theorem Reachable.exists_run (reachable : m.Reachable) :
    ∃ changes, m = Repository.run MemoryRepository.empty changes := by
  induction reachable with
  | empty => exact ⟨[], rfl⟩
  | withViews _ page views ih =>
      obtain ⟨changes, rfl⟩ := ih
      refine ⟨changes ++ views.map (.save page), ?_⟩
      rw [withViews_eq_run, Repository.run, Repository.run, Repository.run, List.foldl_append]
  | perform _ change ih =>
      obtain ⟨changes, rfl⟩ := ih
      refine ⟨changes ++ [change], ?_⟩
      rw [Repository.run, Repository.run, List.foldl_concat]

theorem Reachable.wellFormed (reachable : m.Reachable) (page : Page) :
    SavedViews.WellFormed (m.pages page) := by
  obtain ⟨changes, rfl⟩ := reachable.exists_run
  apply wellFormed_run

/-- A change touches one view of its page at most. -/
theorem effect_perform {change : Change} (below : ¬ SavedViews.Uses (m.pages change.page) 0xffffffff) :
    change.Effect (m.pages change.page) (Repository.answer m (.change change))
      ((Repository.perform m change).pages change.page) := by
  cases change with
  | save page v =>
      have next : (Repository.perform m (.save page v)).pages page =
          SavedViews.save (m.pages page) v := Page.update_self ..
      rw [Change.page, next]
      apply SavedViews.effect_save below
  | delete page id =>
      rw [Change.page, Repository.answer, Repository.perform]
      by_cases uses : SavedViews.Uses (m.pages page) id
      · obtain ⟨before, w, after, split, had, unused⟩ := uses.exists_first
        have removed := SavedViews.remove?_of_first split had unused
        simp only [delete_of_found removed, Except.map, pages_setViews_self]
        rw [split]
        exact .deleted had
      · simp only [delete_of_missing (SavedViews.remove?_of_unused uses), Except.map]
        exact .missing uses

/-- A change touches no other page. -/
theorem pages_perform_of_ne {change : Change} (different : page ≠ change.page) :
    (Repository.perform m change).pages page = m.pages page := by
  cases change with
  | save there v => exact pages_setViews_of_ne m different _
  | delete there id =>
      rw [Repository.perform]
      cases removed : SavedViews.remove? id (m.pages there) with
      | none => rw [delete_of_missing removed]
      | some rest =>
          rw [delete_of_found removed]
          exact pages_setViews_of_ne m different rest

/-- Whatever was done to a repository, every view of a page has an id of its own. A change then
puts its view in the place of the one with its id, behind all others, or takes it out, and fails
only to delete a view that is missing; no other view and no other page is touched, and giving a
page several views is saving them one after the other. -/
theorem Reachable.keeps_order (reachable : m.Reachable) (page : Page) :
    SavedViews.WellFormed (m.pages page) ∧
      (∀ change : Change, change.page = page → ¬ SavedViews.Uses (m.pages page) 0xffffffff →
        change.Effect (m.pages page) (Repository.answer m (.change change))
          ((Repository.perform m change).pages page)) ∧
      (∀ change : Change, change.page ≠ page →
        (Repository.perform m change).pages page = m.pages page) ∧
      ∀ (there : Page) (views : List View),
        m.withViews there views = Repository.run m (views.map (.save there)) := by
  refine ⟨reachable.wellFormed page, ?_, ?_, m.withViews_eq_run⟩
  · rintro change rfl below
    exact effect_perform below
  · intro change different
    exact pages_perform_of_ne (Ne.symm different)

/-- Three views are given to a page, one of them with an id, and the first is deleted. A new view
then goes behind the others under the next id, and one with an id in use takes its place. -/
theorem Reachable.keeps_order_peers :
    let named (title : String) (id : Option UInt32) : View := { View.plain title [] with id := id }
    let m := Repository.perform
      (MemoryRepository.empty.withViews .peers [named "A" none, named "B" (some 7), named "C" none])
      (.delete .peers 1)
    m.Reachable ∧ ¬ SavedViews.Uses (m.pages .peers) 0xffffffff ∧
      m.pages .peers = [named "B" (some 7), named "C" (some 8)] ∧
      SavedViews.WellFormed (m.pages .peers) ∧
      (Change.save .peers (named "D" none)).Effect (m.pages .peers) (.saved (.ok 9))
        [named "B" (some 7), named "C" (some 8), named "D" (some 9)] ∧
      (Change.save .peers (named "E" (some 7))).Effect (m.pages .peers) (.saved (.ok 7))
        [named "E" (some 7), named "C" (some 8)] := by
  intro named m
  have reachable : m.Reachable := .perform (.withViews .empty .peers _) (.delete .peers 1)
  have stored : m.pages .peers = [named "B" (some 7), named "C" (some 8)] := rfl
  have below : ¬ SavedViews.Uses (m.pages .peers) 0xffffffff := by
    rw [stored]
    decide
  obtain ⟨wellFormed, effect, -, -⟩ := Reachable.keeps_order reachable .peers
  exact ⟨reachable, below, stored, wellFormed, effect (.save .peers (named "D" none)) rfl below,
    effect (.save .peers (named "E" (some 7))) rfl below⟩

end MemoryRepository

end TableView
