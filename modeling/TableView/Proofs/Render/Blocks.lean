import Mathlib.Algebra.GroupWithZero.Nat
import TableView.Proofs.Group.Partition
import TableView.Proofs.Sort.Order
import TableView.Render

/-!
# The blocks of a rendering

The rows of a rendering that groups its records are a sequence of blocks, one for each
group: a summary together with the records that it sums up. Whatever the place of the
summaries, the rows without them are the records that the filter keeps, rearranged. This is
so whatever routine sorts the records, but all routines give a rendering only where the sort
keys order them (`Renderer.rows_eq_blocks`).
-/

namespace TableView

/-- A summary and the records beside it. -/
structure Block where
  summary : Summary
  members : List Record

namespace Block

/-- The rows of a block: its members, and its summary before or after them. -/
def rows (place : SummaryPlace) (b : Block) : List Row :=
  match place with
  | .top => .summary b.summary :: b.members.map .record
  | .bottom => b.members.map .record ++ [.summary b.summary]

/-- Whether the summary of a block is that of its members, as one group by a field. -/
structure SumsUp (b : Block) (columnKey : String) : Prop where
  field : b.summary.columnKey = columnKey
  inhabited : 1 ≤ b.summary.memberCount
  counted : b.members.length = b.summary.memberCount
  alike : ∀ m ∈ b.members, (m.value columnKey).groupKey = b.summary.key.groupKey

@[simp] theorem filterMap_record?_rows (place : SummaryPlace) (b : Block) :
    (b.rows place).filterMap (·.record?) = b.members := by
  cases place <;> simp [rows, Row.record?, List.filterMap_map]

@[simp] theorem filterMap_summary?_rows (place : SummaryPlace) (b : Block) :
    (b.rows place).filterMap (·.summary?) = [b.summary] := by
  cases place <;> simp [rows, Row.summary?, List.filterMap_map]

end Block

namespace Group

/-- The blocks of records that are grouped by a field. -/
def blocks (key : String) (columns : List Column) (records : List Record) (layout : Layout) :
    List Block :=
  (partition key records).map fun g => ⟨g.summary key columns layout, g.members⟩

variable {key : String} {columns : List Column} {records : List Record} {layout : Layout}

theorem arrange_eq_blocks : arrange (some key) columns records layout =
    (blocks key columns records layout).flatMap (Block.rows layout.summaryPlace) := by
  rw [blocks, List.flatMap_map]
  rfl

theorem blocks_summaryPlace (place : SummaryPlace) :
    blocks key columns records { layout with summaryPlace := place } =
      blocks key columns records layout := rfl

theorem mem_blocks {b : Block} (mem : b ∈ blocks key columns records layout) : b.SumsUp key := by
  obtain ⟨g, found, rfl⟩ := List.mem_map.1 mem
  obtain ⟨inhabited, alike⟩ := mem_partition found
  exact ⟨rfl, List.length_pos_iff.2 inhabited, rfl, alike⟩

theorem blocks_distinct :
    ((blocks key columns records layout).map (·.summary.key.groupKey)).Nodup := by
  rw [blocks, List.map_map]
  exact partition_distinct key records

theorem blocks_members :
    (blocks key columns records layout).flatMap (·.members) =
      (partition key records).flatMap (·.members) := by
  rw [blocks, List.flatMap_map]

theorem sum_memberCount_blocks :
    (((blocks key columns records layout).map (·.summary)).map (·.memberCount)).sum =
      ((partition key records).flatMap (·.members)).length := by
  rw [blocks, List.map_map, List.map_map, List.length_flatMap]
  rfl

/-- The records of arranged rows. Only the grouping can have moved them. -/
theorem filterMap_record?_arrange (groupBy : Option String) :
    (arrange groupBy columns records layout).filterMap (·.record?) =
      match groupBy with
      | none => records
      | some key => (partition key records).flatMap (·.members) := by
  cases groupBy with
  | none => simp [arrange, Row.record?, List.filterMap_map]
  | some key =>
      simp only [arrange_eq_blocks, List.filterMap_flatMap, Block.filterMap_record?_rows,
        blocks_members]

theorem filterMap_record?_arrange_perm (groupBy : Option String) :
    ((arrange groupBy columns records layout).filterMap (·.record?)).Perm records := by
  rw [filterMap_record?_arrange]
  cases groupBy with
  | none => exact .refl records
  | some key => exact partition_members_perm key records

/-- The summaries of arranged rows, one for each block. -/
theorem filterMap_summary?_arrange (groupBy : Option String) :
    (arrange groupBy columns records layout).filterMap (·.summary?) =
      match groupBy with
      | none => []
      | some key => (blocks key columns records layout).map (·.summary) := by
  cases groupBy with
  | none => simp [arrange, Row.summary?, List.filterMap_map]
  | some key =>
      simp only [arrange_eq_blocks, List.filterMap_flatMap, Block.filterMap_summary?_rows,
        List.map_eq_flatMap]

theorem filterMap_summary?_arrange_some :
    (arrange (some key) columns records layout).filterMap (·.summary?) =
      (partition key records).map (·.summary key columns layout) := by
  have ofBlocks : (arrange (some key) columns records layout).filterMap (·.summary?) =
      (blocks key columns records layout).map (·.summary) := filterMap_summary?_arrange (some key)
  rw [ofBlocks, blocks, List.map_map]
  rfl

end Group

namespace Rendered

theorem recordCount_eq_length (r : Rendered) :
    r.recordCount = (r.rows.filterMap (·.record?)).length := by
  rw [recordCount, List.length_filterMap_eq_countP]
  refine List.countP_congr ?_
  intro row _
  cases row <;> simp [Row.isSummary, Row.record?, Row.summary?]

theorem groupCount_eq_length (r : Rendered) :
    r.groupCount = (r.rows.filterMap (·.summary?)).length :=
  List.length_filterMap_eq_countP.symm

/-- Every row is a record or a summary. -/
theorem recordCount_add_groupCount (r : Rendered) :
    r.recordCount + r.groupCount = r.rows.length := by
  have split := List.length_eq_countP_add_countP (·.isSummary) (l := r.rows)
  rw [recordCount, groupCount, split]
  simp [Nat.add_comm]

end Rendered

namespace Renderer

/-- Renders with the summaries in another place. -/
def withSummaries (r : Renderer) (place : SummaryPlace) : Renderer :=
  { r with layout := { r.layout with summaryPlace := place } }

/-- The records to be arranged, sorted by the keys that the schema allows. -/
def sorted (r : Renderer) (v : View) (records : List Record) : List Record :=
  SortKey.sort (SortKey.allowed (r.schema v) v.sortKeys).1 (r.kept v records)

/-- What is rendered are sorted records, whatever the routine and the place of the summaries. -/
theorem exists_of_renderWith {r : Renderer} {routine : SortRoutine Record} {v : View}
    {records : List Record} {rendered : Rendered}
    (renders : r.renderWith routine v records = some rendered) :
    ∃ sorted : List Record, sorted.Perm (r.kept v records) ∧
      rendered.rows = Group.arrange (r.grouping v) v.columns sorted r.layout ∧
      ∀ place, (r.withSummaries place).renderWith routine v records =
        some ⟨Group.arrange (r.grouping v) v.columns sorted { r.layout with summaryPlace := place },
          r.warning v⟩ := by
  obtain ⟨sorted, sorts, rfl⟩ := Option.map_eq_some_iff.1 renders
  exact ⟨sorted, SortKey.sortWith_perm sorts, rfl,
    fun _ => Option.map_eq_some_iff.2 ⟨sorted, sorts, rfl⟩⟩

/-- Sort keys order records whose values under each of them are measured on one scale. -/
theorem orders_of_commensurable {r : Renderer} {v : View} {records : List Record}
    (fits : ∀ k ∈ (SortKey.allowed (r.schema v) v.sortKeys).1,
      Commensurable (r.kept v records) k.columnKey) : r.Orders v records :=
  SortKey.ordersAmong_all fits

/-- All sorting routines give a rendering exactly if the sort keys order the records, as they do
where no number meets a duration that is beyond the exact ones. The records of every rendering are
those that the filter keeps, rearranged. If they are grouped, the rows are blocks, one for each
group, whose summaries count all records. The place of the summaries moves no record past another
and no summary past another. -/
theorem rows_eq_blocks (r : Renderer) (v : View) (records : List Record) :
    ((∀ routine, ∃ rendered, r.renderWith routine v records = some rendered) ↔
      r.Orders v records) ∧
    ((∀ k ∈ (SortKey.allowed (r.schema v) v.sortKeys).1,
      Commensurable (r.kept v records) k.columnKey) → r.Orders v records) ∧
    (r.Orders v records → ∀ routine,
      r.renderWith routine v records = some (r.render v records)) ∧
    r.renderWith .merge v records = some (r.render v records) ∧
    ∀ routine rendered, r.renderWith routine v records = some rendered →
      (rendered.rows.filterMap (·.record?)).Perm
        (records.filter ((v.filter.checked (r.schema v)).1.keeps ·)) ∧
      (match r.grouping v with
        | none => rendered.groupCount = 0
        | some key => ∃ blocks : List Block,
            rendered.rows = blocks.flatMap (Block.rows r.layout.summaryPlace) ∧
            (blocks.map (·.summary.key.groupKey)).Nodup ∧ (∀ b ∈ blocks, b.SumsUp key) ∧
            ((rendered.rows.filterMap (·.summary?)).map (·.memberCount)).sum =
              rendered.recordCount) ∧
      rendered.recordCount + rendered.groupCount = rendered.rows.length ∧
      ∃ top bottom, (r.withSummaries .top).renderWith routine v records = some top ∧
        (r.withSummaries .bottom).renderWith routine v records = some bottom ∧
        top.rows.filterMap (·.record?) = bottom.rows.filterMap (·.record?) ∧
        top.rows.filterMap (·.summary?) = bottom.rows.filterMap (·.summary?) := by
  refine ⟨exists_renderWith_iff, orders_of_commensurable,
    fun orders routine => renderWith_of_orders routine orders, r.renderWith_merge v records, ?_⟩
  intro routine rendered renders
  obtain ⟨sorted, perm, arranged, summaries⟩ := exists_of_renderWith renders
  refine ⟨?_, ?_, rendered.recordCount_add_groupCount, _, _, summaries .top, summaries .bottom,
    ?_, ?_⟩
  · rw [arranged]
    exact (Group.filterMap_record?_arrange_perm (r.grouping v)).trans perm
  · cases grouped : r.grouping v with
    | none =>
        rw [rendered.groupCount_eq_length, arranged, grouped, Group.filterMap_summary?_arrange]
        rfl
    | some key =>
        rw [grouped] at arranged
        refine ⟨_, arranged.trans Group.arrange_eq_blocks, Group.blocks_distinct,
          fun b mem => Group.mem_blocks mem, ?_⟩
        rw [rendered.recordCount_eq_length, arranged, Group.filterMap_summary?_arrange,
          Group.filterMap_record?_arrange]
        exact Group.sum_memberCount_blocks
  · simp only [Group.filterMap_record?_arrange]
  · simp only [Group.filterMap_summary?_arrange, Group.blocks_summaryPlace]

/-- Three peers, of which two always reconnect, sorted by name and shown by how they reconnect. -/
theorem rows_eq_blocks_peers :
    let v : View := { View.plain "By setting" Catalog.peersColumns with
      sortKeys := [⟨"peerAlias", .ascending⟩], groupBy := some "setting" }
    let peer (id setting : String) : Record :=
      ((Record.empty id).set "peerAlias" (.text id)).set "setting" (.tag setting)
    let records := [peer "Carol" "AlwaysReconnect", peer "Bob" "DisableReconnect",
      peer "Alice" "AlwaysReconnect"]
    plain.grouping v = some "setting" ∧ ∀ routine, ∃ rendered,
      plain.renderWith routine v records = some rendered ∧
      ∃ blocks : List Block, rendered.rows = blocks.flatMap (Block.rows .top) ∧
        (blocks.map (·.summary.key.groupKey)).Nodup ∧ (∀ b ∈ blocks, b.SumsUp "setting") ∧
        ((rendered.rows.filterMap (·.summary?)).map (·.memberCount)).sum =
          rendered.recordCount := by
  intro v peer records
  have grouped : plain.grouping v = some "setting" := by decide
  have orders : plain.Orders v records := by decide +kernel
  obtain ⟨always, -, -, -, blocks⟩ := plain.rows_eq_blocks v records
  refine ⟨grouped, fun routine => ?_⟩
  obtain ⟨rendered, renders⟩ := always.2 orders routine
  obtain ⟨-, inBlocks, -⟩ := blocks routine rendered renders
  rw [grouped] at inBlocks
  exact ⟨rendered, renders, inBlocks⟩

/-- Not every sorting routine gives a rendering of waits that the numbers among them cannot tell
apart. -/
theorem rows_not_always_blocks :
    ¬ ∀ (routine : SortRoutine Record) (r : Renderer) (v : View) (records : List Record),
      ∃ rendered, r.renderWith routine v records = some rendered ∧
        (rendered.rows.filterMap (·.record?)).Perm
          (records.filter ((v.filter.checked (r.schema v)).1.keeps ·)) := by
  intro always
  let v : View := { View.plain "Waits" [⟨"wait", "Wait", .numeric, .duration, [], false⟩] with
    sortKeys := [⟨"wait", .ascending⟩] }
  have orders : plain.Orders v SortKey.closeWaits := by
    refine exists_renderWith_iff.1 fun routine => ?_
    obtain ⟨rendered, renders, -⟩ := always routine plain v SortKey.closeWaits
    exact ⟨rendered, renders⟩
  exact SortKey.not_ordersAmong_closeWaits orders

end Renderer

end TableView
