import TableView.Proofs.Render.Blocks
import TableView.Proofs.Sort.Ties

/-!
# A filter that keeps fewer records

Sorting some of the records puts them in the order that they have among all sorted records.
So it is the same to filter first and to sort first, and a view whose filter is tightened
shows the records that remain as they stood before, with the others gone from between them.
-/

namespace TableView

/-- The view with another filter. -/
def View.withFilter (v : View) (f : Filter) : View := { v with filter := f }

namespace Renderer

variable {r : Renderer} {v : View} {tighter : Filter} {records : List Record}

/-- What a tighter filter keeps is what it keeps of the records that were kept before. -/
theorem kept_withFilter (fewer : r.kept (v.withFilter tighter) records ⊆ r.kept v records) :
    r.kept (v.withFilter tighter) records =
      (r.kept v records).filter ((tighter.checked (r.schema v)).1.keeps ·) := by
  have unfiltered : r.kept (v.withFilter tighter) records =
      records.filter ((tighter.checked (r.schema v)).1.keeps ·) := rfl
  rw [unfiltered] at fewer ⊢
  rw [kept, CheckedFilter.select, List.filter_filter]
  refine List.filter_congr ?_
  intro record known
  cases remains : (tighter.checked (r.schema v)).1.keeps record with
  | false => rfl
  | true =>
      have keptBefore := List.mem_filter.1 (fewer (List.mem_filter.2 ⟨known, remains⟩))
      rw [keptBefore.2, Bool.and_self]

/-- The records of a rendering, in the order in which they are shown. -/
def shown (r : Renderer) (v : View) (records : List Record) : List Record :=
  (r.render v records).rows.filterMap (·.record?)

theorem shown_eq (r : Renderer) (v : View) (records : List Record) :
    r.shown v records =
      match r.grouping v with
      | none => r.sorted v records
      | some key => (Group.partition key (r.sorted v records)).flatMap (·.members) :=
  Group.filterMap_record?_arrange (r.grouping v)

/-- Filtering and sorting commute, whatever the filter is. So if the filter of a view is replaced
by one that keeps no other records, the records that remain are sorted as they were before. The
view shows them in that order, all of them if it is not grouped, and those of each group if it is. -/
theorem sorted_tightened :
    (∀ (keys : List SortKey) (records : List Record) (p : Record → Bool),
        (∀ k ∈ keys, Commensurable records k.columnKey) →
        SortKey.sort keys (records.filter p) = (SortKey.sort keys records).filter p) ∧
      ∀ (r : Renderer) (v : View) (tighter : Filter) (records : List Record),
        let w := v.withFilter tighter
        let remains := (tighter.checked (r.schema v)).1.keeps
        r.kept w records ⊆ r.kept v records →
        (∀ k ∈ (SortKey.allowed (r.schema v) v.sortKeys).1,
          Commensurable (r.kept v records) k.columnKey) →
        r.sorted w records = (r.sorted v records).filter (remains ·) ∧
          match r.grouping v with
          | none => r.shown w records = (r.shown v records).filter (remains ·)
          | some key => ∀ group : GroupKey,
              let inGroup := fun record : Record => decide ((record.value key).groupKey = group)
              (r.shown w records).filter inGroup =
                ((r.shown v records).filter inGroup).filter (remains ·) := by
  refine ⟨fun keys records p fits => SortKey.sort_filter fits p, ?_⟩
  intro r v tighter records w remains fewer fits
  have sorted : r.sorted w records = (r.sorted v records).filter (remains ·) := by
    have kept := kept_withFilter fewer
    rw [sorted, sorted, kept]
    exact SortKey.sort_filter fits _
  have sameGrouping : r.grouping w = r.grouping v := rfl
  refine ⟨sorted, ?_⟩
  rw [shown_eq, shown_eq, sameGrouping, sorted]
  cases r.grouping v with
  | none => rfl
  | some key =>
      intro group inGroup
      simp only [inGroup, Group.partition_members_filter]
      exact List.filter_comm _ _ _

/-- Four peers by how long they wait, longest first. One has no wait and two tie, one by a duration
and one by a number. Then only those are shown that wait for more than a minute. -/
theorem sorted_tightened_waits :
    let k : SortKey := ⟨"wait", .descending⟩
    let v : View := { View.plain "Waits" [.plain "wait" "Wait" .duration .duration] with
      sortKeys := [k] }
    let w := v.withFilter (.clause ⟨"wait", .duration (.greaterThan (.ofInt 60))⟩)
    let wait (id : String) (value : Value) : Record := (Record.empty id).set "wait" value
    let records := [wait "1" (.number (.ofInt 10)), wait "2" (.duration 90), Record.empty "3",
      wait "4" (.number (.ofInt 90))]
    Commensurable records k.columnKey ∧
      SortKey.sort [k] (records.filter (·.id ≠ "2")) =
        (SortKey.sort [k] records).filter (·.id ≠ "2") ∧
      plain.kept w records ⊆ plain.kept v records ∧ plain.kept w records ≠ plain.kept v records ∧
      plain.grouping v = none ∧ (plain.shown w records).Sublist (plain.shown v records) := by
  intro k v w wait records
  have fits : Commensurable records k.columnKey := by
    refine .inr ?_
    intro r known seconds value
    have short : ∀ r ∈ records, ∀ d, r.value "wait" = .duration d → d = 90 := by
      simp [records, wait, Record.value, eq_comm]
    rw [short r known seconds value]
    decide
  have allowed : (SortKey.allowed (plain.schema v) v.sortKeys).1 = [k] := by decide
  have everything : plain.kept v records = records := List.filter_eq_self.2 fun _ _ => rfl
  have fewer : plain.kept w records ⊆ plain.kept v records := by
    rw [everything]
    exact List.filter_sublist.subset
  have ungrouped : plain.grouping v = none := rfl
  obtain ⟨commute, tightened⟩ := sorted_tightened
  obtain ⟨-, same⟩ := tightened plain v _ records fewer
    (by rw [allowed, everything]; exact List.forall_mem_singleton.2 fits)
  refine ⟨fits, commute [k] records _ (List.forall_mem_singleton.2 fits), fewer, ?_, ungrouped, ?_⟩
  · decide +kernel
  · have remaining : plain.shown w records = (plain.shown v records).filter _ := same
    rw [remaining]
    exact List.filter_sublist

end Renderer

end TableView
