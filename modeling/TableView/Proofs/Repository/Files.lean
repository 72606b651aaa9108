import TableView.Proofs.Definition.Depth
import TableView.Proofs.Definition.View
import TableView.Proofs.Json.Read
import TableView.Proofs.Json.RoundTrip
import TableView.Proofs.Repository.Run
import TableView.Proofs.Repository.Saved
import TableView.Repository.Files

/-!
# The files of a repository

A repository that only its own calls have written has, for every page, no file or
one that spells well-formed saved views with the first selected
(`FileRepository.OwnFiles`). Such a file is read as what is read back of its views
(`View.reread?`). If one of them is not read back, the file is no longer JSON that spells
views, and every operation on the page fails. What any file spells can be written again
(`FileRepository.isStorable_of_read`).

By a reader of nearest numbers a file is read back exactly if every view on it is
storable: its filter compares with finite numbers only, and its nesting leaves room for
the three containers around it (`View.isStorable`). Of any repository, whoever has written
its files, a page that was just written is then read back as what was written or not at
all (`FileRepository.read_of_written`).
-/

namespace TableView

/-- Whether a saved view can be read back: the view, its list and its page are open around
the filter. -/
def View.isStorable (v : View) : Bool :=
  v.filter.isFinite && decide (v.filter.toJson.depth + 3 ≤ Json.nestingLimit)

/-- Nothing is read back of a view that is not storable, whatever reads the numbers. -/
theorem View.reread?_of_not_isStorable [Json.NumberReader] {v : View}
    (unstorable : v.isStorable = false) : v.reread? = none := by
  rw [reread?, Option.map_eq_none_iff, ite_eq_right_iff]
  intro fits
  rw [isStorable, decide_eq_true fits, Bool.and_true] at unstorable
  exact Filter.reread?_of_not_finite unstorable

/-- By a reader of nearest numbers exactly the storable views are read back, as they were. -/
theorem View.reread?_eq_ite (v : View) : v.reread? = if v.isStorable then some v else none := by
  rw [reread?, Filter.reread?_eq_ite, isStorable]
  by_cases fits : v.filter.toJson.depth + 3 ≤ Json.nestingLimit <;>
    cases finite : v.filter.isFinite <;> simp [fits]

theorem PageViews.reread?_eq_ite (p : PageViews) : p.reread? =
    if p.views.all (·.isStorable) ∧ p.selected < 0x10000000000000000 then some p else none := by
  rw [reread?, mapM_ite fun v _ => v.reread?_eq_ite]
  by_cases storable : p.views.all (·.isStorable) <;> simp [storable]

@[simp] theorem View.isStorable_withId (v : View) (id : Option UInt32) :
    { v with id := id }.isStorable = v.isStorable := rfl

/-- A saved list is storable if the view that was put there is, and those around it are. -/
theorem SavedViews.all_isStorable_put {views : List View} (storable : views.all (·.isStorable))
    (id : UInt32) (v : View) : (put id v views).all (·.isStorable) = v.isStorable := by
  induction views with
  | nil => simp [put]
  | cons w rest ih =>
      rw [List.all_cons, Bool.and_eq_true] at storable
      by_cases same : w.id = some id
      · rw [put, if_pos same, List.all_cons, View.isStorable_withId, storable.2, Bool.and_true]
      · rw [put, if_neg same, List.all_cons, storable.1, Bool.true_and, ih storable.2]

namespace FileRepository

variable {r : FileRepository} {page other : Page} {views : List View} {v : View} {id : UInt32}
variable {commit : Commit FileRepository} {p : PageViews} {stored? : Option PageViews}

/-- The text of a page on which some views are saved. -/
def textOf (page : Page) (views : List View) : String :=
  (PageViews.toJson ⟨page, views, 0⟩).pretty

/-- No page has a file that the repository has not written itself. -/
structure OwnFiles (r : FileRepository) : Prop where
  open_ : r.isBlocked = false
  own : ∀ page, r.files page = .absent ∨
    ∃ views, SavedViews.WellFormed views ∧ r.files page = .text (textOf page views)

theorem ownFiles_empty (location : String) : OwnFiles (empty location) :=
  ⟨rfl, fun _ => .inl rfl⟩

/-- The repository with the file of a page written. -/
def withPage (r : FileRepository) (p : PageViews) : FileRepository :=
  { r with files := Page.update r.files p.page (.text p.toJson.pretty) }

@[simp] theorem isBlocked_withPage (r : FileRepository) (p : PageViews) :
    (r.withPage p).isBlocked = r.isBlocked := rfl

@[simp] theorem files_withPage_self (r : FileRepository) (p : PageViews) :
    (r.withPage p).files p.page = .text p.toJson.pretty := Page.update_self ..

@[simp] theorem files_withPage_of_ne (r : FileRepository) {p : PageViews} {page : Page}
    (different : page ≠ p.page) : (r.withPage p).files page = r.files page :=
  Page.update_of_ne r.files different _

/-- The repository with other views on a page. -/
def withViews (r : FileRepository) (page : Page) (views : List View) : FileRepository :=
  { r with files := Page.update r.files page (.text (textOf page views)) }

@[simp] theorem files_withViews_self (r : FileRepository) (page : Page) (views : List View) :
    (r.withViews page views).files page = .text (textOf page views) := Page.update_self ..

@[simp] theorem files_withViews_of_ne (r : FileRepository) {page other : Page} (h : other ≠ page)
    (views : List View) : (r.withViews page views).files other = r.files other :=
  Page.update_of_ne r.files h _

theorem OwnFiles.withViews (own : r.OwnFiles) (page : Page)
    (wellFormed : SavedViews.WellFormed views) : (r.withViews page views).OwnFiles := by
  refine ⟨own.open_, ?_⟩
  intro other
  by_cases same : other = page
  · subst same
    exact .inr ⟨views, wellFormed, r.files_withViews_self other views⟩
  · rw [r.files_withViews_of_ne same]
    exact own.own other

section Reading

variable [Json.NumberReader]

/-- The views that are saved on a page. -/
def savedViews (r : FileRepository) (page : Page) : List View :=
  match r.load page with
  | .ok (some p) => p.views
  | _ => []

/-- Written views are read back with their numbers, or refused. -/
theorem decode_pretty (r : FileRepository) (p : PageViews) :
    r.decode p.page p.toJson.pretty = p.reread?.elim (.error .json) .ok := by
  rw [decode, Json.read?_pretty, Option.bind_some, PageViews.ofJson?_reread]
  cases read : p.reread? with
  | none => rfl
  | some q => exact if_pos (PageViews.page_of_reread? read)

theorem read_of_absent (unblocked : r.isBlocked = false) (absent : r.files page = .absent) :
    r.read page = .ok none := by
  simp only [read, unblocked, absent, Bool.false_eq_true, if_false]

theorem read_of_text (unblocked : r.isBlocked = false)
    (written : r.files page = .text (textOf page views)) :
    r.read page =
      (views.mapM View.reread?).elim (.error .json) fun stored => .ok (some ⟨page, stored, 0⟩) := by
  have decoded : r.read page = (r.decode page (textOf page views)).map some := by
    simp only [read, unblocked, written, Bool.false_eq_true, if_false]
  have read : PageViews.reread? ⟨page, views, 0⟩ =
      (views.mapM View.reread?).map fun stored => ⟨page, stored, 0⟩ := by
    rw [PageViews.reread?]
    cases views.mapM View.reread? <;> rfl
  have spelled := r.decode_pretty ⟨page, views, 0⟩
  rw [read] at spelled
  rw [decoded, textOf, spelled]
  cases views.mapM View.reread? <;> rfl

theorem load_of_text (unblocked : r.isBlocked = false)
    (written : r.files page = .text (textOf page views)) (some_ : views ≠ []) :
    r.load page =
      (views.mapM View.reread?).elim (.error .json) fun stored => .ok (some ⟨page, stored, 0⟩) := by
  rw [load, read_of_text unblocked written]
  cases read : views.mapM View.reread? with
  | none => rfl
  | some stored =>
      have notEmpty : stored.isEmpty = false := by
        rw [List.isEmpty_eq_false_iff, ← List.length_pos_iff, length_of_mapM read]
        exact List.length_pos_iff.2 some_
      simp only [Option.elim_some, Except.map, Option.filter, notEmpty, Bool.not_false, if_true]

/-- A file is read as the views that it spells, which must be those of its own page. -/
theorem decode_eq_ok_iff {text : String} : r.decode page text = .ok p ↔
    (Json.read? text).bind (PageViews.ofJson? .direct) = some p ∧ p.page = page := by
  rw [decode]
  cases spelled : (Json.read? text).bind (PageViews.ofJson? .direct) with
  | none => simp
  | some views =>
      by_cases own : views.page = page
      · simp only [if_pos own, Except.ok.injEq, Option.some.injEq]
        constructor
        · rintro rfl
          exact ⟨rfl, own⟩
        · exact And.left
      · simp only [if_neg own, Option.some.injEq, reduceCtorEq, false_iff, not_and]
        rintro rfl
        exact own

/-- The views of a page that was read are those that its file spells. -/
theorem exists_text_of_read (read : r.read page = .ok (some p)) :
    r.isBlocked = false ∧
      ∃ content, r.files page = .text content ∧ r.decode page content = .ok p := by
  cases blocked : r.isBlocked with
  | true => simp [FileRepository.read, blocked] at read
  | false =>
      cases file : r.files page with
      | text content =>
          simp only [FileRepository.read, blocked, file, Bool.false_eq_true, if_false] at read
          cases decoded : r.decode page content with
          | error error => simp [decoded, Except.map] at read
          | ok q =>
              simp only [decoded, Except.map, Except.ok.injEq, Option.some.injEq] at read
              exact ⟨rfl, content, rfl, read ▸ decoded⟩
      | _ => simp [FileRepository.read, blocked, file] at read

theorem page_of_read (read : r.read page = .ok (some p)) : p.page = page := by
  obtain ⟨-, content, -, decoded⟩ := exists_text_of_read read
  exact (decode_eq_ok_iff.1 decoded).2

/-- Whatever reads the numbers of a file, the views that it spells are storable, and the position
of the selected one is within 64 bits. -/
theorem isStorable_of_read (read : r.read page = .ok (some p)) :
    p.views.all (·.isStorable) = true ∧ p.selected < 0x10000000000000000 := by
  obtain ⟨-, content, -, decoded⟩ := exists_text_of_read read
  obtain ⟨spelled, -⟩ := decode_eq_ok_iff.1 decoded
  obtain ⟨tree, wasRead, found⟩ := Option.bind_eq_some_iff.1 spelled
  have fits := Json.read?_fits wasRead
  have finite := PageViews.isFinite_of_ofJson? fits.expressible found
  have room : ∀ v ∈ p.views, v.filter.toJson.depth ≤ 120 + 4 :=
    PageViews.depth_le_of_ofJson? fits.depth_le found
  refine ⟨?_, PageViews.selected_lt_of_ofJson? fits.expressible found⟩
  rw [List.all_eq_true]
  intro v mem
  rw [View.isStorable, Bool.and_eq_true, decide_eq_true_eq]
  exact ⟨List.all_eq_true.1 finite v mem, Nat.add_le_add_right (room v mem) 3⟩

theorem load_eq_some_iff :
    r.load page = .ok (some p) ↔ r.read page = .ok (some p) ∧ p.views ≠ [] := by
  rw [load]
  rcases r.read page with error | _ | stored
  · simp [Except.map]
  · simp [Except.map]
  · simp only [Except.map, Except.ok.injEq, Option.some.injEq, Option.filter_eq_some_iff]
    constructor
    · rintro ⟨rfl, kept⟩
      exact ⟨rfl, by simpa using kept⟩
    · rintro ⟨rfl, kept⟩
      exact ⟨rfl, by simpa using kept⟩

theorem isStorable_of_mem_savedViews (mem : v ∈ r.savedViews page) : v.isStorable := by
  rw [savedViews] at mem
  split at mem
  next p loaded =>
    obtain ⟨read, -⟩ := load_eq_some_iff.1 loaded
    exact List.all_eq_true.1 (isStorable_of_read read).1 v mem
  next => cases mem

/-- A page that only its own repository has written is refused, or read as the views that are
saved on it. -/
theorem OwnFiles.read_cases (own : r.OwnFiles) (page : Page) :
    r.read page = .error .json ∨
      ∃ stored?, r.read page = .ok stored? ∧
        stored?.getD ⟨page, [], 0⟩ = ⟨page, r.savedViews page, 0⟩ ∧
        SavedViews.WellFormed (r.savedViews page) := by
  obtain absent | ⟨views, wellFormed, written⟩ := own.own page
  · have read := read_of_absent own.open_ absent
    have none_ : r.savedViews page = [] := by
      simp only [savedViews, load, read, Except.map, Option.filter]
    rw [none_]
    exact .inr ⟨none, read, rfl, .nil⟩
  · have read := read_of_text own.open_ written
    cases again : views.mapM View.reread? with
    | none =>
        rw [again] at read
        exact .inl read
    | some stored =>
        rw [again] at read
        have saved : r.savedViews page = stored := by
          cases stored with
          | nil => simp [savedViews, load, read, Except.map, Option.filter]
          | cons v rest => simp [savedViews, load, read, Except.map, Option.filter]
        rw [saved]
        have ids := map_eq_of_mapM (fun _ _ => View.id_of_reread?) again
        exact .inr ⟨_, read, rfl, wellFormed.of_map_id ids⟩

end Reading

/-- By a reader of nearest numbers a text of storable views is read back. -/
theorem read_of_text_eq_ite (unblocked : r.isBlocked = false)
    (written : r.files page = .text (textOf page views)) :
    r.read page = if views.all (·.isStorable) then .ok (some ⟨page, views, 0⟩)
      else .error .json := by
  rw [read_of_text unblocked written, mapM_ite fun v _ => v.reread?_eq_ite]
  split <;> rfl

theorem write_of_open (unblocked : r.isBlocked = false) (file : r.files p.page ≠ .folder) :
    ∃ log, r.write p = .ok ⟨r.withPage p, log⟩ := by
  have free : ¬(r.isBlocked ∨ r.files p.page = .folder) := by
    rintro (blocked | folder)
    · exact Bool.false_ne_true (unblocked.symm.trans blocked)
    · exact file folder
  exact ⟨_, if_neg free⟩

/-- A page is written only where nothing is in the way. -/
theorem write_eq_ok (written : r.write p = .ok commit) :
    r.isBlocked = false ∧ commit.repository = r.withPage p := by
  rw [write] at written
  split at written
  next => cases written
  next free =>
    cases written
    exact ⟨by simpa using fun blocked => free (.inl blocked), rfl⟩

theorem OwnFiles.write (own : r.OwnFiles) (page : Page) (views : List View) :
    ∃ log, r.write ⟨page, views, 0⟩ = .ok ⟨r.withViews page views, log⟩ := by
  refine write_of_open own.open_ ?_
  show r.files page ≠ .folder
  obtain absent | ⟨_, -, written⟩ := own.own page
  · simp [absent]
  · simp [written]

section Changing

variable [Json.NumberReader]

theorem read_withPage (unblocked : r.isBlocked = false) :
    (r.withPage p).read p.page = p.reread?.elim (.error .json) fun q => .ok (some q) := by
  simp only [FileRepository.read, isBlocked_withPage, unblocked, files_withPage_self,
    Bool.false_eq_true, if_false, decode_pretty]
  cases p.reread? <;> rfl

theorem read_of_written_elsewhere (written : r.write p = .ok commit) (different : other ≠ p.page) :
    commit.repository.read other = r.read other := by
  obtain ⟨-, changed⟩ := write_eq_ok written
  rw [changed]
  simp only [FileRepository.read, isBlocked_withPage, r.files_withPage_of_ne different]
  rfl

/-- A save puts the view among those that are saved on its page. -/
theorem OwnFiles.save (own : r.OwnFiles) (saved : r.save page v = .ok (id, commit)) :
    id = SavedViews.idFor (r.savedViews page) v ∧
      commit.repository = r.withViews page (SavedViews.put id v (r.savedViews page)) ∧
      SavedViews.WellFormed (r.savedViews page) := by
  obtain refused | ⟨stored?, read, stored, wellFormed⟩ := own.read_cases page
  · simp [FileRepository.save, refused, bind, Except.bind] at saved
  · obtain ⟨log, written⟩ := own.write page (SavedViews.save (r.savedViews page) v)
    simp only [FileRepository.save, read, bind, Except.bind, stored, written, Except.ok.injEq,
      Prod.mk.injEq] at saved
    obtain ⟨rfl, rfl⟩ := saved
    exact ⟨rfl, rfl, wellFormed⟩

/-- A delete leaves the other views of the page. -/
theorem OwnFiles.delete (own : r.OwnFiles) (deleted : r.delete page id = .ok commit) :
    ∃ rest, SavedViews.remove? id (r.savedViews page) = some rest ∧
      commit.repository = r.withViews page rest ∧ SavedViews.WellFormed rest := by
  obtain refused | ⟨stored?, read, stored, wellFormed⟩ := own.read_cases page
  · simp [FileRepository.delete, refused, bind, Except.bind] at deleted
  · cases stored? with
    | none => simp [FileRepository.delete, read, bind, Except.bind] at deleted
    | some p =>
        have page_ : p = ⟨page, r.savedViews page, 0⟩ := stored
        cases removed : SavedViews.remove? id (r.savedViews page) with
        | none => simp [FileRepository.delete, read, bind, Except.bind, page_, removed] at deleted
        | some rest =>
            obtain ⟨log, written⟩ := own.write page rest
            simp only [FileRepository.delete, read, bind, Except.bind, page_, removed, ite_self,
              written, Except.ok.injEq] at deleted
            subst deleted
            exact ⟨rest, rfl, rfl, wellFormed.sublist (SavedViews.remove?_sublist removed)⟩

theorem run_ownFiles (own : r.OwnFiles) (changes : List Change) :
    (Repository.run r changes).OwnFiles := by
  refine Repository.run_keeps ?_ ?_ own changes
  · intro r page v id commit own saved
    obtain ⟨-, written, wellFormed⟩ := own.save saved
    rw [written]
    exact own.withViews _ (wellFormed.put _ _)
  · intro r page id commit own deleted
    obtain ⟨rest, -, written, wellFormed⟩ := own.delete deleted
    rw [written]
    exact own.withViews _ wellFormed

end Changing

/-- By a reader of nearest numbers a page that was written is read back if its views are storable
and the position of the selected one is within 64 bits, and is otherwise refused. -/
theorem read_withPage_eq_ite (unblocked : r.isBlocked = false) :
    (r.withPage p).read p.page =
      if p.views.all (·.isStorable) ∧ p.selected < 0x10000000000000000 then .ok (some p)
      else .error .json := by
  rw [read_withPage unblocked, p.reread?_eq_ite]
  split <;> rfl

/-- By a reader of nearest numbers what was written is read back, if anything is. -/
theorem read_of_written (written : r.write p = .ok commit)
    (read : commit.repository.read p.page = .ok stored?) : stored? = some p := by
  obtain ⟨unblocked, changed⟩ := write_eq_ok written
  rw [changed, read_withPage_eq_ite unblocked] at read
  split at read
  · cases read
    rfl
  · cases read

end FileRepository

end TableView
