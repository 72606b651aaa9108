import TableView.Proofs.Edit.Locked
import TableView.Proofs.Group.Table
import TableView.Proofs.Render.Blocks

/-!
# Labels and cells

The label of a group is made from the value of its first member, the cells of a column from
the values of all. A group holds equal numbers or one and the same value, so the label is what
the cells show, unless the first of two zeros is shown with a sign and the other without one
(`label_eq_cells_iff`).

That is for values that the column shows as they are. The items of a list are shown by their
labels in a cell, and the lemmas here leave out the lists where that makes a difference.
-/

namespace TableView

/-- The texts of the cells of a row. -/
def Row.line (columns : List Column) (row : Row) : List String := columns.map row.cellText

/-- Whether a value is a list with an item that the column shows by another label. -/
def Column.relabels (c : Column) : Value → Bool
  | .list items => items.any fun item => c.labelOf item ≠ item
  | _ => false

/-- Whether two values are the two zeros, in one order or the other. -/
def Value.OppositeZeros (v w : Value) : Prop :=
  ∃ negative, v = number (.zero negative) ∧ w = number (.zero !negative)

namespace Value

variable {c : Column} {v w : Value} {x y : Binary64}

/-- Values of one group that are not blank are equal numbers or one and the same value. -/
theorem GroupsWith.numbers_or_eq (alike : v.GroupsWith w) (present : v.isBlank = false) :
    (∃ x y : Binary64, v = number x ∧ w = number y ∧ x.eq y = true) ∨ v = w := by
  obtain ⟨blank, -⟩ | equal | v := alike
  · rw [present] at blank
    cases blank
  · exact .inl ⟨_, _, rfl, rfl, equal⟩
  · exact .inr rfl

theorem numberText_eq_iff (equal : x.eq y = true) :
    numberText x = numberText y ↔ ¬ (number x).OppositeZeros (number y) := by
  obtain ⟨left, right⟩ := Binary64.isNaN_of_eq equal
  have ranks := (Binary64.eq_iff left right).1 equal
  by_cases zero : x.word = 0
  · have zeroRight : y.word = 0 :=
      Binary64.rank_eq_zero_iff.1 (ranks ▸ Binary64.rank_eq_zero_iff.2 zero)
    have signs : (number x).OppositeZeros (number y) ↔ y.negative = !x.negative := by
      rw [Binary64.eq_zero_of_word zero, Binary64.eq_zero_of_word zeroRight]
      simp [OppositeZeros, Binary64.zero]
    rw [signs, Binary64.eq_zero_of_word zero, Binary64.eq_zero_of_word zeroRight]
    show _ ↔ ¬ y.negative = !x.negative
    cases x.negative <;> cases y.negative <;> decide +kernel
  · obtain rfl := Binary64.eq_of_rank_eq zero ranks
    apply iff_of_true rfl
    rintro ⟨negative, first, -⟩
    cases first
    exact zero rfl

/-- Values of one group are shown alike in a column unless they are zeros of different signs. -/
theorem cellText_eq_iff (alike : v.GroupsWith w) (present : v.isBlank = false) :
    c.cellText v = c.cellText w ↔ ¬ v.OppositeZeros w := by
  obtain ⟨x, y, rfl, rfl, equal⟩ | rfl := alike.numbers_or_eq present
  · exact numberText_eq_iff equal
  · apply iff_of_true rfl
    rintro ⟨negative, first, second⟩
    rw [first] at second
    cases negative <;> cases second

/-- A column relabels all values of a group or none. -/
theorem relabels_eq (alike : v.GroupsWith w) (present : v.isBlank = false) :
    c.relabels v = c.relabels w := by
  obtain ⟨x, y, rfl, rfl, -⟩ | rfl := alike.numbers_or_eq present <;> rfl

end Value

namespace Group

variable {key : String} {c : Column} {records : List Record} {layout : Layout}

/-- The label of a group is what the column shows for the value of the group. -/
theorem label_eq_cellText {g : Group} (present : g.value.isBlank = false)
    (shown : c.relabels g.value = false) : g.label (some c) layout = c.cellText g.value := by
  obtain ⟨value, members⟩ := g
  unfold label
  rw [if_neg (by simp [Value.isEmpty_of_not_isBlank present])]
  cases value with
  | list items =>
      have kept : ∀ item ∈ items, c.labelOf item = item := by
        simpa [Column.relabels] using shown
      have labels : items.map c.labelOf = items :=
        (List.map_congr_left kept).trans (List.map_id items)
      simp only [Column.cellText, labels, Value.display]
  | _ => rfl

/-- The value of a group that is not blank is that of its first member. -/
theorem value_eq_of_present {g : Group} (mem : g ∈ partition key records)
    (present : g.value.isBlank = false) :
    ∃ first, g.members.head? = some first ∧ g.value = first.value key := by
  obtain ⟨first, found, rfl⟩ := List.mem_map.1 mem
  refine ⟨first, head?_around found, ?_⟩
  simp only [around, valueOf] at present ⊢
  cases blank : (first.value key).isBlank with
  | true => rw [blank] at present; cases present
  | false => rfl

end Group

namespace Rendered

/-- What is shown of grouped records is shown group by group. In a group that is not blank the text
of the summary in the grouped column is that of every member, unless the member has one of the zeros
and the first member the other. -/
theorem label_eq_cells_iff {columns : List Column} {position : Nat} {c : Column}
    (distinct : (columns.map (·.key)).Nodup) (found : columns[position]? = some c)
    (records : List Record) (layout : Layout) (warning : Option Warning) :
    let blocks := Group.blocks c.key columns records layout
    (⟨Group.arrange (some c.key) columns records layout, warning⟩ : Rendered).display columns =
        blocks.flatMap (fun b => (b.rows layout.summaryPlace).map (Row.line columns)) ∧
      ∀ b ∈ blocks, b.summary.key.isBlank = false →
        ∃ first, b.members.head? = some first ∧
          ∀ r ∈ b.members, c.relabels (r.value c.key) = false →
            (((Row.summary b.summary).line columns)[position]? =
                ((Row.record r).line columns)[position]? ↔
              ¬ (first.value c.key).OppositeZeros (r.value c.key)) := by
  intro blocks
  constructor
  · rw [display, Group.arrange_eq_blocks, List.map_flatMap]
    rfl
  · intro b mem present
    obtain ⟨g, known, rfl⟩ := List.mem_map.1 mem
    obtain ⟨first, isFirst, value⟩ := Group.value_eq_of_present known present
    refine ⟨first, isFirst, fun r member plain => ?_⟩
    have alike : g.value.GroupsWith (r.value c.key) :=
      Value.groupKey_eq_iff.1 ((Group.mem_partition known).2 r member).symm
    have column : Column.find? columns c.key = some c :=
      Column.find?_key distinct (List.mem_of_getElem? found)
    have label : (Row.summary (g.summary c.key columns layout)).cellText c = c.cellText g.value := by
      have own : (Row.summary (g.summary c.key columns layout)).cellText c =
          g.label (Column.find? columns c.key) layout := if_pos rfl
      rw [own, column]
      exact Group.label_eq_cellText present ((Value.relabels_eq alike present).trans plain)
    rw [Row.line, Row.line, List.getElem?_map, List.getElem?_map, found, Option.map_some,
      Option.map_some, Option.some.injEq, label, ← value]
    exact Value.cellText_eq_iff alike present

/-- A group of both zeros has the label of its first one. -/
theorem label_eq_cells_iff_zeros :
    let column := Column.plain "amt" "Amount" .numeric .number
    let plus := (Record.empty "1").set "amt" (.number (.zero false))
    let minus := (Record.empty "2").set "amt" (.number (.zero true))
    ∃ b ∈ Group.blocks "amt" [column] [plus, minus] .standard,
      ((Row.summary b.summary).line [column])[0]? = ((Row.record plus).line [column])[0]? ∧
        ((Row.summary b.summary).line [column])[0]? ≠ ((Row.record minus).line [column])[0]? := by
  intro column plus minus
  let g : Group := ⟨.number (.zero false), [plus, minus]⟩
  have split : Group.partition "amt" [plus, minus] = [g] := by decide
  have mem : ⟨g.summary "amt" [column] .standard, [plus, minus]⟩ ∈
      Group.blocks "amt" [column] [plus, minus] .standard := by
    rw [Group.blocks, split]
    exact List.mem_cons_self
  have distinct : ([column].map (·.key)).Nodup := by decide
  have found : [column][0]? = some column := rfl
  obtain ⟨-, labels⟩ := label_eq_cells_iff distinct found [plus, minus] .standard none
  obtain ⟨first, isFirst, cells⟩ := labels _ mem (by decide)
  obtain rfl : plus = first := Option.some.inj isFirst
  refine ⟨_, mem, ?_, ?_⟩
  · apply (cells plus (by simp) (by decide)).2
    rintro ⟨negative, one, other⟩
    cases negative <;> cases other
    cases one
  · apply mt (cells minus (by simp) (by decide)).1
    exact not_not_intro ⟨false, rfl, rfl⟩

/-- The label of a group of both zeros is not what the second one shows. -/
theorem label_not_always_cells :
    ¬ ∀ (columns : List Column) (position : Nat) (c : Column) (records : List Record)
      (layout : Layout), (columns.map (·.key)).Nodup → columns[position]? = some c →
      ∀ b ∈ Group.blocks c.key columns records layout, b.summary.key.isBlank = false →
        ∀ r ∈ b.members, ((Row.summary b.summary).line columns)[position]? =
          ((Row.record r).line columns)[position]? := by
  intro always
  let column := Column.plain "amt" "Amount" .numeric .number
  let amount (id : String) (x : Binary64) := (Record.empty id).set "amt" (.number x)
  have cells := always [column] 0 column [amount "1" (.zero false), amount "2" (.zero true)]
    .standard (by decide) rfl
  revert cells
  decide +kernel

end Rendered

end TableView
