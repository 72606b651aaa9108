import TableView.Proofs.Definition.Finite
import TableView.Proofs.Definition.View
import TableView.Proofs.Json.Spelled

/-!
# Definitions and edits read back

A finite definition is read back from whatever is spelled of it, however deep its filters are,
in whatever order its members stand and whether or not it was held back on the way. What is
read from any tree that can be spelled is finite, so spelling it and reading it again changes
nothing (`definition_read_back`).
-/

namespace TableView

open Json

variable (access : Access)

namespace NumberTest

theorem against?_readsBack {x : Binary64} (finite : x.isFinite = true) :
    ReadsBack against? (obj [("value", float x)]) x := by
  refine .record (by simp) ?_
  intro fields spell
  exact spell.required? "value" (by simp) (.float finite)

theorem range?_readsBack {least greatest : Binary64} (low : least.isFinite = true)
    (high : greatest.isFinite = true) :
    ReadsBack range? (obj [("min", float least), ("max", float greatest)]) (least, greatest) := by
  refine .record (by simp) ?_
  intro fields spell
  rw [spell.required? "min" (by simp) (.float low), spell.required? "max" (by simp) (.float high)]
  rfl

theorem readsBack {test : NumberTest} (finite : test.isFinite = true) :
    ReadsBack (ofJson? access) test.toJson test := by
  cases test with
  | equals value | notEquals value | greaterThan value | greaterThanOrEqual value
  | lessThan value | lessThanOrEqual value =>
      exact .tagged_fields (by simp) (against?_readsBack finite).map
  | between least greatest | notBetween least greatest =>
      obtain ⟨low, high⟩ := Bool.and_eq_true_iff.1 finite
      exact .tagged_fields (by simp) (range?_readsBack low high).map

end NumberTest

theorem TextTest.readsBack (test : TextTest) : ReadsBack (ofJson? access) test.toJson test := by
  refine .record (by simp) ?_
  intro fields spell
  rw [spell.required? "operator" (by simp) (.str (TextOperator.ofJson?_name access test.operator)),
    spell.required? "value" (by simp) (.text test.value)]
  rfl

theorem TagTest.readsBack (test : TagTest) : ReadsBack (ofJson? access) test.toJson test := by
  cases test with
  | oneOf tags | noneOf tags =>
      refine .tagged_content (by simp) ?_
      intro access
      exact (ReadsBack.list fun tag _ => .text tag).map

namespace DateTest

theorem against?_readsBack (t : Instant) : ReadsBack against? (obj [("value", str t.text)]) t := by
  refine .record (by simp) ?_
  intro fields spell
  exact spell.required? "value" (by simp) (.str t.ofJson?_text)

theorem range?_readsBack (start finish : Instant) :
    ReadsBack range? (obj [("start", str start.text), ("end", str finish.text)])
      (start, finish) := by
  refine .record (by simp) ?_
  intro fields spell
  rw [spell.required? "start" (by simp) (.str start.ofJson?_text),
    spell.required? "end" (by simp) (.str finish.ofJson?_text)]
  rfl

theorem readsBack (test : DateTest) : ReadsBack (ofJson? access) test.toJson test := by
  cases test with
  | before value | after value => exact .tagged_fields (by simp) (against?_readsBack value).map
  | between start finish => exact .tagged_fields (by simp) (range?_readsBack start finish).map

end DateTest

theorem Condition.readsBack {c : Condition} (finite : c.isFinite = true) :
    ReadsBack (ofJson? access) c.toJson c := by
  cases c with
  | number test | duration test =>
      exact .tagged_content (by simp) fun access => (NumberTest.readsBack access finite).map
  | text test => exact .tagged_content (by simp) fun access => (TextTest.readsBack access test).map
  | tag test => exact .tagged_content (by simp) fun access => (TagTest.readsBack access test).map
  | date test => exact .tagged_content (by simp) fun access => (DateTest.readsBack access test).map
  | boolean expected => exact .tagged_content (by simp) fun _ => (ReadsBack.bool expected).map
  | isEmpty | isNotEmpty => exact .tagged_bare (by simp) rfl

theorem Condition.key_of_mem_members {c : Condition} {m : String × Json} (member : m ∈ c.members) :
    m.1 = "kind" ∨ m.1 = "condition" := by
  have keys : ∀ m ∈ c.members, m.1 = "kind" ∨ m.1 = "condition" := by
    cases c <;> simp [members]
  exact keys m member

theorem Clause.ofMembers?_readsBack {c : Clause} (finite : c.condition.isFinite = true)
    {spelled : List (String × Json)}
    (h : Spelled (obj (("columnKey", str c.columnKey) :: c.condition.members)) (obj spelled)) :
    ofMembers? spelled = some c := by
  have others : ∀ m ∈ c.condition.members, m.1 ≠ "columnKey" := by
    intro m member
    obtain key | key := Condition.key_of_mem_members member <;> simp [key]
  have once : (("columnKey", str c.columnKey) :: c.condition.members).filter (·.1 == "columnKey") =
      [("columnKey", str c.columnKey)] := by
    rw [List.filter_cons_of_pos (by simp), List.filter_eq_nil_iff.2]
    simpa using others
  have beside : (("columnKey", str c.columnKey) :: c.condition.members).filter
      (·.1 != "columnKey") = c.condition.members := by
    rw [List.filter_cons_of_neg (by simp), List.filter_eq_self]
    simpa using others
  have held := h.filter (· != "columnKey")
  rw [beside] at held
  have readable : haveReadable (spelled.filter (·.1 != "columnKey")) = true := held.isReadable
  obtain ⟨_, only, ⟨⟩⟩ := h.filter_eq_singleton once
  simp only [ofMembers?, only, readable, Condition.readsBack .held finite _ held, string?, if_true,
    Option.bind_eq_bind, Option.bind_some]

namespace Filter

theorem childrenOf?_of_filter {members : List (String × Json)} {part : Json}
    (once : members.filter (·.1 == "children") = [("children", part)]) :
    childrenOf? members = listOf? part := by
  induction members with
  | nil => cases once
  | cons m rest ih =>
      obtain ⟨key, v⟩ := m
      by_cases here : key = "children"
      · subst here
        rw [List.filter_cons_of_pos (by simp)] at once
        obtain ⟨first, later⟩ := List.cons.inj once
        have noMore : rest.any (·.1 == "children") = false := by
          rw [List.any_eq_false]
          exact List.filter_eq_nil_iff.1 later
        rw [childrenOf?, if_pos rfl, noMore, if_neg (by simp), (Prod.mk.inj first).2]
      · rw [List.filter_cons_of_neg (by simpa using here)] at once
        rw [childrenOf?, if_neg here]
        exact ih once

theorem listOf?_eq (v : Json) : listOf? v = v.list? ofReadable? := by
  cases v with
  | arr items => exact ofReadableAll?_eq items
  | _ => rfl

/-- A group is read back as a group if its children are read back: it has no key, so it cannot
be read as a clause. -/
theorem ofReadable?_readsBack_group (combinator : Combinator) {children : List Filter}
    (each : ∀ f ∈ children, ReadsBack ofReadable? f.toJson f) :
    ReadsBack ofReadable? (group combinator children).toJson (group combinator children) := by
  intro w spelled
  obtain ⟨_, found, rfl, -⟩ := spelled.of_obj
  rw [toJson, toJsonAll_eq] at spelled
  have noKey : found.filter (·.1 == "columnKey") = [] := spelled.filter_eq_nil (by simp)
  have tag : [("combinator", str combinator.name), ("children", arr (children.map toJson))].filter
      (·.1 == "combinator") = [("combinator", str combinator.name)] := by simp
  have content : [("combinator", str combinator.name), ("children", arr (children.map toJson))].filter
      (·.1 == "children") = [("children", arr (children.map toJson))] := by simp
  obtain ⟨_, tagOnly, ⟨⟩⟩ := spelled.filter_eq_singleton tag
  obtain ⟨part, contentOnly, items⟩ := spelled.filter_eq_singleton content
  have noClause : Clause.ofMembers? found = none := by
    rw [Clause.ofMembers?, noKey]
    rfl
  have name : Combinator.ofMembers? found = some combinator := by
    rw [Combinator.ofMembers?, tagOnly]
    cases combinator <;> rfl
  have read : childrenOf? found = some children := by
    rw [childrenOf?_of_filter contentOnly, listOf?_eq]
    exact ReadsBack.list each part items
  rw [ofReadable?, noClause, name, read]

theorem ofReadable?_readsBack {f : Filter} (finite : f.isFinite = true) :
    ReadsBack ofReadable? f.toJson f := by
  induction f with
  | clause c =>
      rw [isFinite_clause] at finite
      intro w spelled
      obtain ⟨_, found, rfl, -⟩ := spelled.of_obj
      rw [ofReadable?, Clause.ofMembers?_readsBack finite spelled]
  | group combinator children ih =>
      rw [isFinite_group, List.all_eq_true] at finite
      exact ofReadable?_readsBack_group combinator fun f member => ih f member (finite f member)

/-- A finite filter is read back. -/
theorem readsBack {f : Filter} (finite : f.isFinite = true) : ReadsBack ofJson? f.toJson f := by
  intro w spelled
  rw [ofJson?, if_pos spelled.isReadable, ofReadable?_readsBack finite w spelled]

end Filter

theorem Choice.readsBack (c : Choice) : ReadsBack ofJson? c.toJson c := by
  refine .record (by simp) ?_
  intro fields spell
  rw [spell.required? "label" (by simp) (.text c.label),
    spell.required? "value" (by simp) (.text c.value)]
  rfl

theorem CellStyle.readsBack (s : CellStyle) : ReadsBack (ofJson? access) s.toJson s :=
  .str (ofJson?_toJson access s)

theorem ValueKind.readsBack (k : ValueKind) : ReadsBack (ofJson? access) k.toJson k :=
  .str (ofJson?_toJson access k)

theorem Page.readsBack (page : Page) : ReadsBack (ofJson? access) page.toJson page :=
  .str (ofJson?_toJson access page)

theorem Column.readsBack (c : Column) : ReadsBack (ofJson? access) c.toJson c := by
  obtain ⟨key, heading, style, kind, choices, locked⟩ := c
  have choicesRead : ReadsBack (·.list? Choice.ofJson?) (ofList Choice.toJson choices) choices :=
    .list fun c _ => c.readsBack
  cases choices with
  | nil =>
      refine .record (by simp) ?_
      intro fields spell
      rw [spell.required? "key" (by simp) (.text key),
        spell.required? "heading" (by simp) (.text heading),
        spell.required? "type" (by simp) (style.readsBack access),
        spell.required? "valueType" (by simp) (kind.readsBack access),
        spell.withDefault?_of_absent "selectOptions" (by simp),
        spell.withDefault? "locked" (by simp) (.bool locked)]
      rfl
  | cons choice more =>
      refine .record (by simp) ?_
      intro fields spell
      rw [spell.required? "key" (by simp) (.text key),
        spell.required? "heading" (by simp) (.text heading),
        spell.required? "type" (by simp) (style.readsBack access),
        spell.required? "valueType" (by simp) (kind.readsBack access),
        spell.withDefault? "selectOptions" (by simp) choicesRead,
        spell.withDefault? "locked" (by simp) (.bool locked)]
      rfl

theorem SortKey.readsBack (k : SortKey) : ReadsBack (ofJson? access) k.toJson k := by
  have direction : Direction.ofJson? access (str k.direction.name) = some k.direction := by
    cases k.direction <;> rfl
  refine .record (by simp) ?_
  intro fields spell
  rw [spell.required? "columnKey" (by simp) (.text k.columnKey),
    spell.withDefault? "direction" (by simp) (.str direction)]
  rfl

theorem SortKey.readsBack_list (keys : List SortKey) :
    ReadsBack (·.list? (ofJson? access)) (ofList toJson keys) keys :=
  .list fun k _ => k.readsBack access

theorem Grouping.readsBack (columnKey : String) :
    ReadsBack ofJson? (toJson columnKey) columnKey := by
  refine .record (by simp) ?_
  intro fields spell
  exact spell.required? "columnKey" (by simp) (.text columnKey)

theorem Grouping.readsBack_nullable (groupBy : Option String) :
    ReadsBack (·.nullable? ofJson?) (ofOption toJson groupBy) groupBy :=
  .nullable readsBack nofun groupBy

theorem View.readsBack {v : View} (finite : v.isFinite = true) :
    ReadsBack (ofJson? access) v.toJson v := by
  have id : ReadsBack (·.nullable? uint32?) (ofOption (fun id => int id.toNat) v.id) v.id :=
    .nullable (fun id => .int (uint32?_toNat id)) nofun v.id
  have columns : ReadsBack (·.list? (Column.ofJson? access)) (ofList Column.toJson v.columns)
      v.columns := .list fun c _ => c.readsBack access
  refine .record (by simp) ?_
  intro fields spell
  rw [spell.withDefault? "id" (by simp) id, spell.required? "title" (by simp) (.text v.title),
    spell.required? "columns" (by simp) columns,
    spell.withDefault? "filters" (by simp) (Filter.readsBack finite),
    spell.withDefault? "sortBy" (by simp) (SortKey.readsBack_list access v.sortKeys),
    spell.withDefault? "groupBy" (by simp) (Grouping.readsBack_nullable v.groupBy)]
  rfl

theorem PageViews.readsBack {p : PageViews} (finite : p.isFinite = true) :
    ReadsBack (ofJson? access) p.toJson p := by
  have views : ReadsBack (·.list? (View.ofJson? access)) (ofList View.toJson p.views) p.views :=
    .list fun v member => View.readsBack access (List.all_eq_true.1 finite v member)
  refine .record (by simp) ?_
  intro fields spell
  rw [spell.required? "page" (by simp) (p.page.readsBack access),
    spell.required? "views" (by simp) views,
    spell.withDefault? "selectedViewIndex" (by simp) (.int (index?_int p.selected))]
  rfl

/-- A change is read back: what stays as it is is left out, and what is left out stays. -/
theorem ColumnChange.readsBack (change : ColumnChange) :
    ReadsBack (ofJson? access) change.toJson change := by
  obtain ⟨heading, style⟩ := change
  refine .record (by cases heading <;> cases style <;> simp) ?_
  intro fields spell
  have headed : fields.withDefault? "heading" none (·.nullable? string?) = some heading := by
    cases heading with
    | none => exact spell.withDefault?_of_absent "heading" (by cases style <;> simp)
    | some heading =>
        exact spell.withDefault? "heading" (by cases style <;> simp)
          ((ReadsBack.text heading).nullable_some nofun)
  have styled : fields.withDefault? "type" none (·.nullable? (CellStyle.ofJson? access)) =
      some style := by
    cases style with
    | none => exact spell.withDefault?_of_absent "type" (by cases heading <;> simp)
    | some style =>
        exact spell.withDefault? "type" (by cases heading <;> simp)
          ((style.readsBack access).nullable_some nofun)
  rw [headed, styled]
  rfl

namespace Edit

theorem index?_readsBack (n : Nat) : ReadsBack index? (int n) n := .int (index?_int n)

theorem viewIndex?_readsBack (index : Nat) :
    ReadsBack viewIndex? (obj [("viewIndex", int index)]) index := by
  refine .record (by simp) ?_
  intro fields spell
  exact spell.required? "viewIndex" (by simp) (index?_readsBack index)

/-- A change of a view is read back if it is from the fields it has besides the position. -/
theorem inView?_readsBack {names : List String} {decode : Fields → Option ViewEdit} {index : Nat}
    {members : List (String × Json)} {edit : ViewEdit}
    (once : ∀ name ∈ "viewIndex" :: names,
      (("viewIndex", int index) :: members).countP (·.1 == name) ≤ 1)
    (absent : members.filter (·.1 == "viewIndex") = [])
    (decoded : ∀ fields, fields.Spell (("viewIndex", int index) :: members) →
      decode fields = some edit) :
    ReadsBack (inView? · names decode) (obj (("viewIndex", int index) :: members))
      (inView index edit) := by
  refine .record once ?_
  intro fields spell
  rw [spell.required? "viewIndex" (by simp [absent]) (index?_readsBack index),
    decoded fields spell]
  rfl

theorem ofFields?_readsBack_inView (index : Nat) {edit : ViewEdit} (finite : edit.isFinite = true) :
    ReadsBack (ofFields? edit.name) (obj (("viewIndex", int index) :: viewEditMembers edit))
      (inView index edit) := by
  cases edit with
  | addColumn column =>
      refine inView?_readsBack (by simp [viewEditMembers]) (by simp [viewEditMembers]) fun fields spell => ?_
      rw [spell.required? "column" (by simp [viewEditMembers]) (column.readsBack .held)]
      rfl
  | deleteColumn column =>
      refine inView?_readsBack (by simp [viewEditMembers]) (by simp [viewEditMembers]) fun fields spell => ?_
      rw [spell.required? "columnIndex" (by simp [viewEditMembers]) (index?_readsBack column)]
      rfl
  | changeColumn column change =>
      refine inView?_readsBack (by simp [viewEditMembers]) (by simp [viewEditMembers]) fun fields spell => ?_
      rw [spell.required? "columnIndex" (by simp [viewEditMembers]) (index?_readsBack column),
        spell.required? "update" (by simp [viewEditMembers]) (change.readsBack .held)]
      rfl
  | moveColumn source target =>
      refine inView?_readsBack (by simp [viewEditMembers]) (by simp [viewEditMembers]) fun fields spell => ?_
      rw [spell.required? "fromIndex" (by simp [viewEditMembers]) (index?_readsBack source),
        spell.required? "toIndex" (by simp [viewEditMembers]) (index?_readsBack target)]
      rfl
  | setFilter filter =>
      refine inView?_readsBack (by simp [viewEditMembers]) (by simp [viewEditMembers]) fun fields spell => ?_
      rw [spell.required? "filters" (by simp [viewEditMembers]) (Filter.readsBack finite)]
      rfl
  | setSortKeys keys =>
      refine inView?_readsBack (by simp [viewEditMembers]) (by simp [viewEditMembers]) fun fields spell => ?_
      rw [spell.required? "sortBy" (by simp [viewEditMembers]) (SortKey.readsBack_list .held keys)]
      rfl
  | setGroupBy groupBy =>
      refine inView?_readsBack (by simp [viewEditMembers]) (by simp [viewEditMembers]) fun fields spell => ?_
      rw [spell.optional? "groupBy" (by simp [viewEditMembers]) (Grouping.readsBack_nullable groupBy)]
      rfl
  | setTitle title =>
      refine inView?_readsBack (by simp [viewEditMembers]) (by simp [viewEditMembers]) fun fields spell => ?_
      rw [spell.required? "title" (by simp [viewEditMembers]) (.text title)]
      rfl
  | setId id =>
      refine inView?_readsBack (by simp [viewEditMembers]) (by simp [viewEditMembers]) fun fields spell => ?_
      rw [spell.required? "id" (by simp [viewEditMembers]) (.int (uint32?_toNat id))]
      rfl

theorem ofFields?_readsBack {e : Edit} (finite : e.isFinite = true) :
    ReadsBack (ofFields? e.name) (obj e.members) e := by
  cases e with
  | inView index edit => exact ofFields?_readsBack_inView index finite
  | selectView index | deleteView index => exact (viewIndex?_readsBack index).map
  | addView view =>
      refine .record (by simp [members]) ?_
      intro fields spell
      rw [spell.required? "view" (by simp [members]) (View.readsBack .held finite)]
      rfl

/-- No field of an edit is called like its tag. -/
theorem key_of_mem_members {e : Edit} {m : String × Json} (member : m ∈ e.members) :
    m.1 ≠ "type" := by
  have keys : ∀ m ∈ e.members, m.1 ≠ "type" := by
    cases e with
    | inView index edit => cases edit <;> simp [members, viewEditMembers]
    | _ => simp [members]
  exact keys m member

theorem readsBack {e : Edit} (finite : e.isFinite = true) :
    ReadsBack (ofJson? access) e.toJson e := by
  have absent : e.members.filter (·.1 == "type") = [] := by
    rw [List.filter_eq_nil_iff]
    intro m member
    simpa using key_of_mem_members member
  exact .tagged_fields absent (ofFields?_readsBack finite)

end Edit

/-- Finite views, views of a page and edits are read back from whatever is spelled of them. What
is read from any tree that can be spelled is read back from whatever is spelled of it. -/
theorem definition_read_back :
    (∀ (access : Access) (p : PageViews), p.isFinite = true →
        ReadsBack (PageViews.ofJson? access) p.toJson p) ∧
      (∀ (access : Access) (v : View), v.isFinite = true →
        ReadsBack (View.ofJson? access) v.toJson v) ∧
      (∀ (access : Access) (e : Edit), e.isFinite = true →
        ReadsBack (Edit.ofJson? access) e.toJson e) ∧
      ∀ (access again : Access) (tree : Json), tree.isExpressible = true →
        (∀ p, PageViews.ofJson? access tree = some p →
            ReadsBack (PageViews.ofJson? again) p.toJson p) ∧
          (∀ v, View.ofJson? access tree = some v → ReadsBack (View.ofJson? again) v.toJson v) ∧
          ∀ e, Edit.ofJson? access tree = some e → ReadsBack (Edit.ofJson? again) e.toJson e := by
  refine ⟨fun access p => PageViews.readsBack access, fun access v => View.readsBack access,
    fun access e => Edit.readsBack access, ?_⟩
  intro access again tree expressible
  refine ⟨?_, ?_, ?_⟩
  · intro p read
    exact PageViews.readsBack again (PageViews.isFinite_of_ofJson? expressible read)
  · intro v read
    exact View.readsBack again (View.isFinite_of_ofJson? expressible read)
  · intro e read
    exact Edit.readsBack again (Edit.isFinite_of_ofJson? expressible read)

/-- A filter with groups in groups is read back as it was, and so are the views, the edit and
the page it is part of. A page, a view and an edit that are spelled as arrays, out of order or
without some fields are read back once they have been read. -/
theorem definition_read_back_peers :
    let filter : Filter := .group .any
      [.clause ⟨"amt", .number (.between (.zero true) (.zero false))⟩, .group .all [],
        .clause ⟨"name", .isEmpty⟩]
    let view : View := { View.plain "Peers" Catalog.peersColumns with filter := filter }
    let page : PageViews := ⟨.peers, [view], 0⟩
    let edit : Edit := .inView 0 (.changeColumn 1 ⟨some "Peer", none⟩)
    let pageTree : Json := .arr [.str "peers", .arr []]
    let viewTree : Json := .obj [("columns", .arr []),
      ("filters", .obj [("children", .arr []), ("combinator", .str "or")]), ("title", .str "None")]
    let editTree : Json := .arr [.str "deleteView", .int 2]
    page.isFinite = true ∧ ReadsBack (PageViews.ofJson? .direct) page.toJson page ∧
      view.isFinite = true ∧ ReadsBack (View.ofJson? .direct) view.toJson view ∧
      edit.isFinite = true ∧ ReadsBack (Edit.ofJson? .direct) edit.toJson edit ∧
      pageTree.isExpressible = true ∧ viewTree.isExpressible = true ∧
      editTree.isExpressible = true ∧
      ∃ p v e, PageViews.ofJson? .direct pageTree = some p ∧
        View.ofJson? .direct viewTree = some v ∧ Edit.ofJson? .direct editTree = some e ∧
        ReadsBack (PageViews.ofJson? .held) p.toJson p ∧
        ReadsBack (View.ofJson? .held) v.toJson v ∧ ReadsBack (Edit.ofJson? .held) e.toJson e := by
  intro filter view page edit pageTree viewTree editTree
  obtain ⟨pages, views, edits, again⟩ := definition_read_back
  have finite : view.isFinite = true := by decide
  have pageFinite : page.isFinite = true := by decide
  have pageExpressible : pageTree.isExpressible = true := by decide
  have viewExpressible : viewTree.isExpressible = true := by decide
  have editExpressible : editTree.isExpressible = true := by decide
  refine ⟨pageFinite, pages .direct page pageFinite, finite, views .direct view finite, rfl,
    edits .direct edit rfl, pageExpressible, viewExpressible, editExpressible, _, _, _, rfl, rfl,
    rfl, ?_, ?_, ?_⟩
  · exact (again .direct .held pageTree pageExpressible).1 _ rfl
  · exact (again .direct .held viewTree viewExpressible).2.1 _ rfl
  · exact (again .direct .held editTree editExpressible).2.2 _ rfl

end TableView
