import TableView.Proofs.Repository.Files

/-!
# What a call does to the files

Whatever the files of a repository spell, as long as the file system does not get in the way: a
file that spells no views, or those of another page, is refused by every call on its page
(`FileRepository.Refuses`). Of any other file a save puts one view in its place or behind all
others, a delete takes one out, and everything else of the page is written as it was
(`FileRepository.Outcome`). A call that fails leaves all files as they are. This is a matter of
order: a call goes one step after another, what it has written stays written when a later step
fails (`FileRepository.Steps`), and so it must write last.
-/

namespace TableView

/-- The page that a call is about. -/
def Call.page : Call → Page
  | load page => page
  | change c => c.page

/-- The answer to a call that fails. -/
def Call.failure : Call → RepositoryError → Answer
  | load _, error => .loaded (.error error)
  | change (.save _ _), error => .saved (.error error)
  | change (.delete _ _), error => .deleted (.error error)

/-- The error of a call that has failed. -/
def Answer.error? : Answer → Option RepositoryError
  | loaded (.error error) => some error
  | saved (.error error) => some error
  | deleted (.error error) => some error
  | _ => none

@[simp] theorem Call.error?_failure (call : Call) (error : RepositoryError) :
    (call.failure error).error? = some error := by
  match call with
  | load _ | change (.save _ _) | change (.delete _ _) => rfl

namespace FileRepository

variable {r next : FileRepository} {page : Page} {p : PageViews} {call : Call} {answer : Answer}
variable {error : RepositoryError}

/-- Some steps on the files. What was written before a step fails stays written. -/
abbrev Steps (α : Type) : Type := ExceptT RepositoryError (StateM FileRepository) α

namespace Steps

/-- Reads the file of a page. -/
def read (page : Page) : Steps (Option PageViews) := ExceptT.mk fun r => (r.read page, r)

/-- Writes the file of a page. -/
def write (p : PageViews) : Steps Unit := ExceptT.mk fun r =>
  match r.write p with
  | .ok commit => (.ok (), commit.repository)
  | .error error => (.error error, r)

/-- Reads a page, and passes over an empty one. -/
def load (page : Page) : Steps (Option PageViews) := do
  let stored? ← read page
  return stored?.filter (!·.views.isEmpty)

/-- Reads a page, puts a view among those that are there and writes it. -/
def save (page : Page) (v : View) : Steps UInt32 := do
  let stored := (← read page).getD ⟨page, [], 0⟩
  write { stored with views := SavedViews.save stored.views v }
  return SavedViews.idFor stored.views v

/-- Reads a page, takes a view out and writes it. -/
def delete (page : Page) (id : UInt32) : Steps Unit := do
  match ← read page with
  | none => throw (.viewNotFound page id)
  | some stored =>
    match SavedViews.remove? id stored.views with
    | none => throw (.viewNotFound page id)
    | some rest =>
      write { stored with
        views := rest
        selected := if rest.length ≤ stored.selected then 0 else stored.selected }

/-- What the steps of a call answer, and the files that they leave. -/
def ofCall (r : FileRepository) : Call → Answer × FileRepository
  | .load page =>
      let (result, next) := load page r
      (.loaded result, next)
  | .change (.save page v) =>
      let (result, next) := save page v r
      (.saved result, next)
  | .change (.delete page id) =>
      let (result, next) := delete page id r
      (.deleted result, next)

/-- A step that fails is the last one. -/
theorem bind_apply {α β : Type} (first : Steps α) (rest : α → Steps β) (r : FileRepository) :
    (first >>= rest) r = match first r with
      | (.ok a, next) => rest a next
      | (.error error, next) => (.error error, next) := by
  have unfolded : (first >>= rest) r = ExceptT.bindCont rest (first r).1 (first r).2 := rfl
  rw [unfolded]
  match first r with
  | (.ok a, next) => rfl
  | (.error error, next) => rfl

theorem read_apply (page : Page) (r : FileRepository) : read page r = (r.read page, r) := rfl

theorem load_apply (page : Page) (r : FileRepository) : load page r = (r.load page, r) := by
  rw [load, bind_apply, read_apply, FileRepository.load]
  cases r.read page <;> rfl

theorem save_apply (page : Page) (v : View) (r : FileRepository) :
    save page v r = ((r.save page v).map (·.1), Repository.perform r (.save page v)) := by
  simp only [save, bind_apply, read_apply, Repository.perform, Repository.save,
    FileRepository.save]
  cases r.read page with
  | error error => rfl
  | ok stored? =>
      simp only [write, ExceptT.mk, bind, Except.bind]
      generalize r.write _ = written
      cases written <;> rfl

theorem delete_apply (page : Page) (id : UInt32) (r : FileRepository) :
    delete page id r = ((r.delete page id).map fun _ => (),
      Repository.perform r (.delete page id)) := by
  simp only [delete, bind_apply, read_apply, Repository.perform, Repository.delete,
    FileRepository.delete]
  cases r.read page with
  | error error => rfl
  | ok stored? =>
      cases stored? with
      | none => rfl
      | some stored =>
          simp only [bind, Except.bind]
          cases SavedViews.remove? id stored.views with
          | none => rfl
          | some rest =>
              simp only [write, ExceptT.mk]
              generalize r.write _ = written
              cases written <;> rfl

/-- The steps of a call answer as the repository does, and leave the files that it leaves. -/
theorem ofCall_eq (r : FileRepository) (call : Call) :
    ofCall r call = (Repository.answer r call, Repository.after r call) := by
  match call with
  | .load page => rw [ofCall, load_apply]; rfl
  | .change (.save page v) => rw [ofCall, save_apply]; rfl
  | .change (.delete page id) => rw [ofCall, delete_apply]; rfl

end Steps

/-- Nothing stands in the place of the folder or of a file but texts. -/
structure IsIntact (r : FileRepository) : Prop where
  open_ : r.isBlocked = false
  readable : ∀ page, r.files page = .absent ∨ ∃ content, r.files page = .text content

/-- What the file of a page holds: the views of the page that it spells, and none if it is
missing. -/
inductive Holds (r : FileRepository) (page : Page) : PageViews → Prop where
  | absent (file : r.files page = .absent) : Holds r page ⟨page, [], 0⟩
  | written {content : String} {p : PageViews} (file : r.files page = .text content)
      (spelled : (Json.read? content).bind (PageViews.ofJson? .direct) = some p)
      (own : p.page = page) : Holds r page p

/-- Why the file of a page is refused: it spells no views, or those of another page. -/
inductive Refuses (r : FileRepository) (page : Page) : RepositoryError → Prop where
  | malformed {content : String} (file : r.files page = .text content)
      (unspelled : (Json.read? content).bind (PageViews.ofJson? .direct) = none) :
      Refuses r page .json
  | foreign {content : String} {p : PageViews} (file : r.files page = .text content)
      (spelled : (Json.read? content).bind (PageViews.ofJson? .direct) = some p)
      (other : p.page ≠ page) :
      Refuses r page (.invalidFormat (r.path page ++ " holds views for page " ++ p.page.name ++
        ", expected " ++ page.name))

/-- What a call can answer, and the files that it then leaves. -/
inductive Outcome (r : FileRepository) : Call → Answer → FileRepository → Prop where
  | refused {call : Call} {error : RepositoryError} (refuses : Refuses r call.page error) :
      Outcome r call (call.failure error) r
  | loaded {page : Page} {p : PageViews} (holds : Holds r page p) :
      Outcome r (.load page) (.loaded (.ok (if p.views.isEmpty then none else some p))) r
  /-- A view is put in place of the first one that has its id. -/
  | replaced {page : Page} {v w : View} {p : PageViews} {before after : List View} {id : UInt32}
      (holds : Holds r page p) (given : id = SavedViews.idFor p.views v)
      (split : p.views = before ++ w :: after) (had : w.id = some id)
      (first : ¬ SavedViews.Uses before id) :
      Outcome r (.change (.save page v)) (.saved (.ok id))
        (r.withPage { p with views := before ++ { v with id := some id } :: after })
  /-- A view whose id no view has is put behind all others. -/
  | appended {page : Page} {v : View} {p : PageViews} {id : UInt32} (holds : Holds r page p)
      (given : id = SavedViews.idFor p.views v) (unused : ¬ SavedViews.Uses p.views id) :
      Outcome r (.change (.save page v)) (.saved (.ok id))
        (r.withPage { p with views := p.views ++ [{ v with id := some id }] })
  /-- The first view that has an id is taken out. A selection that is then beyond the views
  becomes the first. -/
  | deleted {page : Page} {w : View} {p : PageViews} {before after : List View} {id : UInt32}
      (holds : Holds r page p) (split : p.views = before ++ w :: after) (had : w.id = some id)
      (first : ¬ SavedViews.Uses before id) :
      Outcome r (.change (.delete page id)) (.deleted (.ok ()))
        (r.withPage { p with
          views := before ++ after
          selected := if (before ++ after).length ≤ p.selected then 0 else p.selected })
  | missing {page : Page} {p : PageViews} {id : UInt32} (holds : Holds r page p)
      (unused : ¬ SavedViews.Uses p.views id) :
      Outcome r (.change (.delete page id)) (.deleted (.error (.viewNotFound page id))) r

theorem Holds.page_eq (holds : Holds r page p) : p.page = page := by
  cases holds with
  | absent file => rfl
  | written file spelled own => exact own

/-- The file of a page is refused or read as what it holds. -/
theorem IsIntact.read_cases (intact : r.IsIntact) (page : Page) :
    (∃ error, r.read page = .error error ∧ Refuses r page error) ∨
      ∃ stored?, r.read page = .ok stored? ∧ Holds r page (stored?.getD ⟨page, [], 0⟩) := by
  obtain absent | ⟨content, file⟩ := intact.readable page
  · exact .inr ⟨none, read_of_absent intact.open_ absent, .absent absent⟩
  · have read : r.read page = (r.decode page content).map some := by
      simp only [FileRepository.read, intact.open_, file, Bool.false_eq_true, if_false]
    rw [read, decode]
    cases spelled : (Json.read? content).bind (PageViews.ofJson? .direct) with
    | none => exact .inl ⟨_, rfl, .malformed file spelled⟩
    | some p =>
        by_cases own : p.page = page
        · refine .inr ⟨some p, ?_, .written file spelled own⟩
          simp only [if_pos own, Except.map]
        · refine .inl ⟨_, ?_, .foreign file spelled own⟩
          simp only [if_neg own, Except.map]

theorem IsIntact.write (intact : r.IsIntact) (p : PageViews) :
    ∃ log, r.write p = .ok ⟨r.withPage p, log⟩ := by
  apply write_of_open intact.open_
  obtain absent | ⟨content, file⟩ := intact.readable p.page
  · simp [absent]
  · simp [file]

/-- A call on a page that is refused fails, and leaves the files as they are. -/
theorem answer_of_refused (refused : r.read call.page = .error error) :
    Repository.answer r call = call.failure error ∧ Repository.after r call = r := by
  match call with
  | .load page =>
      have failed : Repository.load r page = .error error := by
        rw [Call.page] at refused
        simp only [Repository.load, load, refused, Except.map]
      exact ⟨congrArg Answer.loaded failed, rfl⟩
  | .change (.save page v) =>
      have failed : Repository.save r page v = .error error := by
        rw [Call.page, Change.page] at refused
        simp only [Repository.save, FileRepository.save, refused, bind, Except.bind]
      simp only [Repository.answer, Repository.after, Repository.perform, failed, Except.map,
        Call.failure, and_self]
  | .change (.delete page id) =>
      have failed : Repository.delete r page id = .error error := by
        rw [Call.page, Change.page] at refused
        simp only [Repository.delete, FileRepository.delete, refused, bind, Except.bind]
      simp only [Repository.answer, Repository.after, Repository.perform, failed, Except.map,
        Call.failure, and_self]

/-- A save puts one view among those that the file of its page holds. -/
theorem IsIntact.outcome_save (intact : r.IsIntact) {stored? : Option PageViews}
    (read : r.read page = .ok stored?) (holds : Holds r page (stored?.getD ⟨page, [], 0⟩))
    (v : View) :
    Outcome r (.change (.save page v)) (Repository.answer r (.change (.save page v)))
      (Repository.after r (.change (.save page v))) := by
  generalize known : stored?.getD ⟨page, [], 0⟩ = p at holds
  have saved : ∃ log, Repository.save r page v = .ok (SavedViews.idFor p.views v,
      ⟨r.withPage { p with views := SavedViews.save p.views v }, log⟩) := by
    obtain ⟨log, written⟩ := intact.write { p with views := SavedViews.save p.views v }
    refine ⟨log, ?_⟩
    simp only [Repository.save, FileRepository.save, read, bind, Except.bind, known, written]
  obtain ⟨log, saved⟩ := saved
  simp only [Repository.answer, Repository.after, Repository.perform, saved, Except.map]
  by_cases uses : SavedViews.Uses p.views (SavedViews.idFor p.views v)
  · obtain ⟨before, w, after, split, had, first⟩ := uses.exists_first
    rw [SavedViews.save, SavedViews.put_of_first split had first]
    exact .replaced holds rfl split had first
  · rw [SavedViews.save, SavedViews.put_of_unused uses]
    exact .appended holds rfl uses

theorem IsIntact.outcome_delete (intact : r.IsIntact) {stored? : Option PageViews}
    (read : r.read page = .ok stored?) (holds : Holds r page (stored?.getD ⟨page, [], 0⟩))
    (id : UInt32) :
    Outcome r (.change (.delete page id)) (Repository.answer r (.change (.delete page id)))
      (Repository.after r (.change (.delete page id))) := by
  generalize known : stored?.getD ⟨page, [], 0⟩ = p at holds
  by_cases uses : SavedViews.Uses p.views id
  · obtain ⟨before, w, after, split, had, first⟩ := uses.exists_first
    have removed := SavedViews.remove?_of_first split had first
    have stored : stored? = some p := by
      cases stored? with
      | none => subst known; simp [SavedViews.Uses] at uses
      | some q => exact congrArg some known
    have deleted : ∃ log, Repository.delete r page id = .ok ⟨r.withPage { p with
        views := before ++ after
        selected := if (before ++ after).length ≤ p.selected then 0 else p.selected }, log⟩ := by
      simp only [Repository.delete, FileRepository.delete, read, bind, Except.bind, stored, removed]
      apply intact.write
    obtain ⟨log, deleted⟩ := deleted
    simp only [Repository.answer, Repository.after, Repository.perform, deleted, Except.map]
    exact .deleted holds split had first
  · have removed := SavedViews.remove?_of_unused uses
    have missing : Repository.delete r page id = .error (.viewNotFound page id) := by
      cases stored? with
      | none => simp only [Repository.delete, FileRepository.delete, read, bind, Except.bind]
      | some q =>
          obtain rfl : q = p := known
          simp only [Repository.delete, FileRepository.delete, read, bind, Except.bind, removed]
    simp only [Repository.answer, Repository.after, Repository.perform, missing, Except.map]
    exact .missing holds uses

/-- Every call on intact files has its outcome. -/
theorem IsIntact.outcome (intact : r.IsIntact) (call : Call) :
    Outcome r call (Repository.answer r call) (Repository.after r call) := by
  obtain ⟨error, refused, refuses⟩ | ⟨stored?, read, holds⟩ := intact.read_cases call.page
  · obtain ⟨failed, kept⟩ := answer_of_refused refused
    rw [failed, kept]
    exact .refused refuses
  · match call with
    | .load page =>
        have shown : Repository.answer r (.load page) =
            .loaded (.ok (if (stored?.getD ⟨page, [], 0⟩).views.isEmpty then none
              else some (stored?.getD ⟨page, [], 0⟩))) := by
          rw [Call.page] at read
          simp only [Repository.answer, Repository.load, load, read, Except.map]
          cases stored? with
          | none => rfl
          | some p => cases empty : p.views.isEmpty <;> simp [Option.filter, empty]
        rw [shown]
        exact .loaded holds
    | .change (.save page v) => exact intact.outcome_save read holds v
    | .change (.delete page id) => exact intact.outcome_delete read holds id

theorem Outcome.eq_of_error (outcome : Outcome r call answer next)
    (failed : answer.error? = some error) : error ≠ .io ∧ next = r := by
  cases outcome with
  | refused refuses =>
      obtain rfl : _ = error := Option.some.inj ((call.error?_failure _).symm.trans failed)
      refine ⟨?_, rfl⟩
      cases refuses <;> exact RepositoryError.noConfusion
  | loaded | replaced | appended | deleted => cases failed
  | missing =>
      cases failed
      exact ⟨RepositoryError.noConfusion, rfl⟩

/-- A call writes the file of its own page at most. -/
theorem Outcome.files_of_ne (outcome : Outcome r call answer next) (different : page ≠ call.page) :
    next.files page = r.files page := by
  cases outcome with
  | refused | loaded | missing => rfl
  | replaced holds | appended holds | deleted holds =>
      apply files_withPage_of_ne
      rwa [holds.page_eq]

/-- Whatever the files spell, a call on them either fails, for a reason that its page gives, and
leaves all files as they are, or it answers with what the file of its page holds and changes one
view of it at most. Nothing is written before all that can fail has been done. -/
theorem call_touches_one_view (r : FileRepository) (intact : r.IsIntact) (call : Call) :
    Steps.ofCall r call = (Repository.answer r call, Repository.after r call) ∧
      Outcome r call (Repository.answer r call) (Repository.after r call) ∧
      (∀ error, (Repository.answer r call).error? = some error →
        error ≠ .io ∧ Repository.after r call = r) ∧
      ∀ page, page ≠ call.page → (Repository.after r call).files page = r.files page := by
  have outcome := intact.outcome call
  refine ⟨Steps.ofCall_eq r call, outcome, ?_, ?_⟩
  · intro error failed
    exact outcome.eq_of_error failed
  · intro page different
    exact outcome.files_of_ne different

/-- The file of one page is damaged, and the other pages have none. A view cannot be saved on the
first page, whose file stays damaged, and is the first one on another. -/
theorem call_touches_one_view_peers :
    let r : FileRepository :=
      ⟨"views", false, Page.update (fun _ => .absent) .peers (.text "not a page")⟩
    let v := View.plain "Mine" []
    r.IsIntact ∧
      Steps.ofCall r (.change (.save .peers v)) = (.saved (.error .json), r) ∧
      Outcome r (.change (.save .peers v)) (.saved (.error .json)) r ∧
      Outcome r (.change (.save .channels v)) (.saved (.ok 1))
        (r.withPage ⟨.channels, [{ v with id := some 1 }], 0⟩) := by
  intro r v
  have intact : r.IsIntact := by
    refine ⟨rfl, ?_⟩
    intro page
    cases page with
    | peers => exact .inr ⟨"not a page", rfl⟩
    | _ => exact .inl rfl
  have refused : Repository.answer r (.change (.save .peers v)) = .saved (.error .json) := rfl
  obtain ⟨steps, outcome, kept, -⟩ := call_touches_one_view r intact (.change (.save .peers v))
  obtain ⟨-, same⟩ := kept .json (by rw [refused]; rfl)
  rw [refused, same] at steps outcome
  exact ⟨intact, steps, outcome,
    (call_touches_one_view r intact (.change (.save .channels v))).2.1⟩

end FileRepository

end TableView
