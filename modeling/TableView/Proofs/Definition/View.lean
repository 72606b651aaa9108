import TableView.Definition.View
import TableView.Proofs.Definition.Filter

/-!
# Views read back

The views of a page are read back with the numbers of their filters, if each of these is
and the position of the selected one is within 64 bits (`PageViews.ofJson?_reread`); one
filter that is not read makes the whole page unreadable. Columns, sort keys and groupings
hold no numbers and have a fixed nesting, so they are always read back as they are.
-/

namespace TableView

open Json

theorem CellStyle.ofJson?_toJson (access : Access) (style : CellStyle) :
    ofJson? access style.toJson = some style := by
  cases style <;> rfl

theorem ValueKind.ofJson?_toJson (access : Access) (kind : ValueKind) :
    ofJson? access kind.toJson = some kind := by
  cases kind <;> rfl

namespace Choice

theorem reread_toJson [NumberReader] (room : Nat) (c : Choice) :
    c.toJson.reread (room + 1) = c.toJson := by
  simp [toJson]

theorem ofJson?_toJson (c : Choice) : ofJson? c.toJson = some c := by
  simp [ofJson?, toJson, fields?, Fields.required?, string?]

end Choice

namespace Column

/-- A column is written as it is read back. -/
theorem reread_toJson [NumberReader] (room : Nat) (c : Column) :
    c.toJson.reread (room + 3) = c.toJson := by
  have choices : (ofList Choice.toJson c.choices).reread (room + 2) =
      ofList Choice.toJson c.choices :=
    reread_ofList fun choice _ => choice.reread_toJson room
  cases none : c.choices.isEmpty <;>
    simp [toJson, none, choices, CellStyle.toJson, ValueKind.toJson]

theorem ofJson?_toJson (access : Access) (c : Column) : ofJson? access c.toJson = some c := by
  have choices : (ofList Choice.toJson c.choices).list? Choice.ofJson? = some c.choices :=
    list?_ofList fun choice _ => choice.ofJson?_toJson
  cases none : c.choices.isEmpty with
  | true =>
      have empty : c.choices = [] := List.isEmpty_iff.1 none
      simp [ofJson?, toJson, fields?, Fields.required?, Fields.withDefault?, string?, bool?, none,
        CellStyle.ofJson?_toJson, ValueKind.ofJson?_toJson]
      rw [← empty]
  | false =>
      simp [ofJson?, toJson, fields?, Fields.required?, Fields.withDefault?, string?, bool?, none,
        CellStyle.ofJson?_toJson, ValueKind.ofJson?_toJson, choices]

end Column

namespace SortKey

theorem reread_toJson [NumberReader] (room : Nat) (k : SortKey) :
    k.toJson.reread (room + 1) = k.toJson := by
  simp [toJson]

theorem ofJson?_toJson (access : Access) (k : SortKey) : ofJson? access k.toJson = some k := by
  have direction : Direction.ofJson? access (str k.direction.name) = some k.direction := by
    cases k.direction <;> rfl
  simp [ofJson?, toJson, fields?, Fields.required?, Fields.withDefault?, string?, direction]

theorem list?_toJson (access : Access) (keys : List SortKey) :
    (ofList toJson keys).list? (ofJson? access) = some keys :=
  list?_ofList fun k _ => k.ofJson?_toJson access

end SortKey

namespace Grouping

theorem reread_toJson [NumberReader] (room : Nat) (columnKey : String) :
    (toJson columnKey).reread (room + 1) = toJson columnKey := by
  simp [toJson]

theorem ofJson?_toJson (columnKey : String) : ofJson? (toJson columnKey) = some columnKey := by
  simp [ofJson?, toJson, fields?, Fields.required?, string?]

theorem nullable?_toJson (groupBy : Option String) :
    (ofOption toJson groupBy).nullable? ofJson? = some groupBy :=
  nullable?_ofOption ofJson?_toJson (fun _ => by simp [toJson]) groupBy

end Grouping

theorem Json.uint32?_toNat (id : UInt32) : (int id.toNat).uint32? = some id := by
  have bounds : (0 : Int) ≤ id.toNat ∧ (id.toNat : Int) ≤ 0xffffffff := by
    have small := id.toNat_lt
    omega
  simp [uint32?, intBetween?, bounds]

namespace View

variable (access : Access) (room : Nat)

/-- Of a written view only the filter can have changed when it is read back. -/
theorem reread_toJson [NumberReader] (v : View) : v.toJson.reread (room + 5) =
    obj [("id", ofOption (fun id => int id.toNat) v.id), ("title", str v.title),
      ("columns", ofList Column.toJson v.columns), ("filters", v.filter.toJson.reread (room + 4)),
      ("sortBy", ofList SortKey.toJson v.sortKeys),
      ("groupBy", ofOption Grouping.toJson v.groupBy)] := by
  have id : (ofOption (fun id : UInt32 => int id.toNat) v.id).reread (room + 4) =
      ofOption (fun id : UInt32 => int id.toNat) v.id := by
    cases v.id with
    | none => rfl
    | some id =>
        have small := id.toNat_lt
        exact reread_int (by omega) (by omega)
  have columns : (ofList Column.toJson v.columns).reread (room + 4) =
      ofList Column.toJson v.columns :=
    reread_ofList fun c _ => c.reread_toJson room
  have keys : (ofList SortKey.toJson v.sortKeys).reread (room + 4) =
      ofList SortKey.toJson v.sortKeys :=
    reread_ofList fun k _ => k.reread_toJson (room + 2)
  have groupBy : (ofOption Grouping.toJson v.groupBy).reread (room + 4) =
      ofOption Grouping.toJson v.groupBy := by
    cases v.groupBy with
    | none => rfl
    | some key => exact Grouping.reread_toJson (room + 3) key
  simp only [toJson, reread_obj_succ, List.map_cons, List.map_nil, reread_str, id, columns, keys,
    groupBy]

/-- Whatever stands in the place of the filter decides what is read; all else is as written. -/
theorem ofJson?_spelled (v : View) (filter : Json) :
    ofJson? access (obj [("id", ofOption (fun id => int id.toNat) v.id), ("title", str v.title),
      ("columns", ofList Column.toJson v.columns), ("filters", filter),
      ("sortBy", ofList SortKey.toJson v.sortKeys),
      ("groupBy", ofOption Grouping.toJson v.groupBy)]) =
      (Filter.ofJson? filter).map fun f => { v with filter := f } := by
  have id : (ofOption (fun id : UInt32 => int id.toNat) v.id).nullable? uint32? = some v.id :=
    nullable?_ofOption uint32?_toNat (fun _ => by simp) v.id
  have columns : (ofList Column.toJson v.columns).list? (Column.ofJson? access) = some v.columns :=
    list?_ofList fun c _ => c.ofJson?_toJson access
  simp only [ofJson?, fields?, Fields.required?, Fields.withDefault?]
  cases read : Filter.ofJson? filter <;>
    simp [string?, id, columns, SortKey.list?_toJson, Grouping.nullable?_toJson, read]

/-- What is read back of a view. The view, its list and its page are open around the filter. -/
def reread? [NumberReader] (v : View) : Option View :=
  (if v.filter.toJson.depth + 3 ≤ nestingLimit then v.filter.reread? else none).map
    fun f => { v with filter := f }

theorem ofJson?_reread [NumberReader] (v : View) :
    ofJson? access (v.toJson.reread (nestingLimit - 2)) = v.reread? := by
  have limit : v.filter.toJson.depth + 3 ≤ nestingLimit ↔ v.filter.toJson.depth ≤ 120 + 4 := by
    simp only [nestingLimit, Nat.reduceAdd, Nat.reduceLeDiff]
  have room : nestingLimit - 2 = 120 + 5 := rfl
  simp only [room, reread_toJson, ofJson?_spelled, Filter.ofJson?_reread, reread?, limit]

/-- Reading a view back changes nothing but its filter. -/
theorem exists_of_reread? [NumberReader] {v w : View} (read : v.reread? = some w) :
    v.filter.toJson.depth + 3 ≤ nestingLimit ∧
      ∃ f, v.filter.reread? = some f ∧ w = { v with filter := f } := by
  obtain ⟨f, found, same⟩ := Option.map_eq_some_iff.1 read
  obtain ⟨fits, found⟩ := Option.ite_none_right_eq_some.1 found
  exact ⟨fits, f, found, same.symm⟩

theorem id_of_reread? [NumberReader] {v w : View} (read : v.reread? = some w) : w.id = v.id := by
  obtain ⟨-, f, -, rfl⟩ := exists_of_reread? read
  rfl

/-- Of the views with some ids those are read back that are read back of all. -/
theorem filter_mapM_reread? [NumberReader] {views stored : List View}
    (read : views.mapM reread? = some stored) (among : Option UInt32 → Bool) :
    (views.filter fun v => among v.id).mapM reread? =
      some (stored.filter fun v => among v.id) := by
  refine filter_of_mapM ?_ read
  intro v w read
  rw [id_of_reread? read]

/-- A view is read back as it was if its filter is not nested too deeply and all its numbers are
read back as they were. -/
theorem reread?_eq_some_self_iff [NumberReader] {v : View} : v.reread? = some v ↔
    v.filter.toJson.depth + 3 ≤ nestingLimit ∧ ∀ x ∈ v.filter.numbers, x.reread? = some x := by
  rw [← Filter.reread?_eq_some_self_iff]
  constructor
  · intro read
    obtain ⟨fits, f, found, same⟩ := exists_of_reread? read
    have kept : v.filter = f := congrArg View.filter same
    rw [← kept] at found
    exact ⟨fits, found⟩
  · rintro ⟨fits, read⟩
    rw [reread?, if_pos fits, read]
    rfl

end View

theorem Json.index?_reread_int [NumberReader] (room n : Nat) :
    ((int n).reread room).index? = if n < 0x10000000000000000 then some n else none := by
  by_cases small : n < 0x10000000000000000
  · rw [reread_int (by omega) (by omega), index?_int, if_pos small]
  · have positive : ¬(n : Int) < 0 := by omega
    have decimal : (int n).reread room = ofDecimal false ⟨n, 0⟩ := by
      simp [reread, rereadLeaf, ofWhole, small, positive]
    rw [decimal, if_neg small, ofDecimal]
    cases NumberReader.read? false ⟨n, 0⟩ <;> rfl

theorem Page.ofJson?_toJson (access : Access) (page : Page) :
    Page.ofJson? access page.toJson = some page := by
  cases page <;> rfl

namespace PageViews

variable (access : Access) (room : Nat)

theorem reread_toJson [NumberReader] (p : PageViews) :
    p.toJson.reread (room + 7) =
      obj [("page", p.page.toJson),
        ("views", arr (p.views.map fun v => v.toJson.reread (room + 5))),
        ("selectedViewIndex", (int p.selected).reread (room + 6))] := by
  have page : p.page.toJson.reread (room + 6) = p.page.toJson := rfl
  simp only [toJson, reread_obj_succ, List.map_cons, List.map_nil, page, ofList,
    reread_arr_succ, List.map_map]
  rfl

/-- Whatever stands in the place of the views and of the position decides what is read. -/
theorem ofJson?_spelled (page : Page) (items : List Json) (selected : Json) :
    ofJson? access (obj [("page", page.toJson), ("views", arr items),
      ("selectedViewIndex", selected)]) =
      (items.mapM (View.ofJson? access)).bind fun views =>
        selected.index?.map fun index => ⟨page, views, index⟩ := by
  simp only [ofJson?, fields?, Fields.required?, Fields.withDefault?]
  cases read : items.mapM (View.ofJson? access) with
  | none => simp [Page.ofJson?_toJson, list?, read]
  | some views =>
      cases position : selected.index? <;>
        simp [Page.ofJson?_toJson, list?, read, position]

/-- What is read back of a page. The position of the selected view must be within 64 bits. -/
def reread? [NumberReader] (p : PageViews) : Option PageViews :=
  (p.views.mapM View.reread?).bind fun views =>
    if p.selected < 0x10000000000000000 then some { p with views := views } else none

/-- One view that is not read back makes its page unreadable. -/
theorem ofJson?_reread [NumberReader] (p : PageViews) :
    ofJson? access (p.toJson.reread nestingLimit) = p.reread? := by
  have room : nestingLimit = 120 + 7 := rfl
  rw [room, reread_toJson 120, ofJson?_spelled, mapM_map fun v _ => v.ofJson?_reread access,
    index?_reread_int, reread?]
  by_cases small : p.selected < 0x10000000000000000
  · simp only [small, if_true, Option.map_some]
  · simp only [small, if_false, Option.map_none]

theorem page_of_reread? [NumberReader] {p q : PageViews} (read : p.reread? = some q) :
    q.page = p.page := by
  obtain ⟨views, -, same⟩ := Option.bind_eq_some_iff.1 read
  obtain ⟨-, same⟩ := Option.ite_none_right_eq_some.1 same
  rw [← Option.some.inj same]

end PageViews

end TableView
