import TableView.Proofs.Group.Durations
import TableView.Proofs.Render.Blocks
import TableView.Proofs.Render.Presentation

/-!
# Subtotals of durations

A summary shows under a column of durations the exact sum of those that the members of its group
hold, as long as all of them together are not too long to be added exactly. Whatever field the
records are grouped by, the subtotals then add up to the total of all records.
-/

namespace TableView.Group

open Binary64 (exactBound)

variable {columns : List Column} {c : Column} {groupedBy : String}

theorem value_summary (g : Group) (layout : Layout) (distinct : (columns.map (·.key)).Nodup)
    (shown : c ∈ columns) :
    (g.summary groupedBy columns layout).value c.key = g.columnValue groupedBy c := by
  have found := g.lookup_columnValues groupedBy c.key distinct
  rw [Column.find?_key distinct shown, Option.map_some] at found
  show ((g.columnValues groupedBy columns).lookup c.key).getD .empty = _
  rw [found, Option.getD_some]

/-- A column of durations shows the sum of the members' values, except where it is grouped by. -/
theorem columnValue_of_duration (g : Group) (kind : c.kind = .duration)
    (other : c.key ≠ groupedBy) :
    g.columnValue groupedBy c =
      (RunningSum.ofValues (g.members.map (·.value c.key))).result .duration := by
  have summed : Aggregation.of c groupedBy = .sum := by
    rw [Aggregation.of, if_neg other, kind]
    rfl
  rw [columnValue, summed, kind]

/-- The summaries of arranged records are those of the groups. In a column of durations that
holds no number and at most `2 ^ 53` seconds, each of them shows the exact sum of the durations
that its members hold, and nothing if they hold none. Together the summaries show the exact sum
over all records. -/
theorem subtotals_exact (records : List Record) (columns : List Column) (layout : Layout)
    (groupedBy : String) (c : Column) (distinct : (columns.map (·.key)).Nodup)
    (shown : c ∈ columns) (kind : c.kind = .duration) (other : c.key ≠ groupedBy)
    (numberless : ∀ r ∈ records, (r.value c.key).kind? ≠ some .number)
    (bounded : totalLength (durations (records.map (·.value c.key))) ≤ exactBound) :
    let groups := partition groupedBy records
    let summaries := (arrange (some groupedBy) columns records layout).filterMap (·.summary?)
    summaries = groups.map (·.summary groupedBy columns layout) ∧
      (∀ g ∈ groups, ((g.summary groupedBy columns layout).value c.key).IsTotal
        (durations (g.members.map (·.value c.key)))) ∧
      (durations (summaries.map (·.value c.key))).sum =
        (durations (records.map (·.value c.key))).sum := by
  intro groups summaries
  have ofGroups : summaries = groups.map (·.summary groupedBy columns layout) :=
    filterMap_summary?_arrange_some
  have exact : ∀ g ∈ groups, ((g.summary groupedBy columns layout).value c.key).IsTotal
      (durations (g.members.map (·.value c.key))) := by
    intro g mem
    have sublist : g.members.Sublist records := partition_members_sublist mem
    have shorter := totalLength_le_of_sublist ((sublist.map (·.value c.key)).filterMap (·.seconds?))
    have numberlessMembers : ∀ v ∈ g.members.map (·.value c.key), v.kind? ≠ some .number := by
      intro v held
      obtain ⟨m, member, rfl⟩ := List.mem_map.1 held
      exact numberless m (sublist.subset member)
    rw [g.value_summary layout distinct shown, g.columnValue_of_duration kind other]
    exact RunningSum.result_isTotal numberlessMembers (Nat.le_trans shorter bounded)
  refine ⟨ofGroups, exact, ?_⟩
  rw [ofGroups, List.map_map, ← sum_durations c.key groupedBy records]
  exact sum_durations_map exact

/-- Payments of three peers, one of whom has no times on record. -/
theorem subtotals_exact_peers :
    let c := Column.plain "delta" "Delta" .duration .duration
    let payment (id peer : String) (delta : Value) : Record :=
      ((Record.empty id).set "peer" (.text peer)).set "delta" delta
    let records := [payment "1" "x" (.duration 60), payment "2" "y" (.duration (-45)),
      payment "3" "x" (.duration 30), payment "4" "z" .empty]
    let summaries := (arrange (some "peer") [c] records .standard).filterMap (·.summary?)
    summaries.map (·.value "delta") = [.duration 90, .duration (-45), .empty] ∧
      (durations (summaries.map (·.value "delta"))).sum = 45 := by
  intro c payment records summaries
  have numberless : ∀ r ∈ records, (r.value "delta").kind? ≠ some .number := by decide
  have bounded : totalLength (durations (records.map (·.value "delta"))) ≤ exactBound := by decide
  obtain ⟨-, -, sum⟩ := subtotals_exact records [c] .standard "peer" c (List.nodup_singleton _)
    (List.mem_singleton.2 rfl) rfl (by decide) numberless bounded
  have total : (durations (records.map (·.value "delta"))).sum = 45 := rfl
  refine ⟨?_, sum.trans total⟩
  decide +kernel

end TableView.Group
