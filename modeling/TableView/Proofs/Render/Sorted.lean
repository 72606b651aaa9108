import TableView.Proofs.Binary64.Key
import TableView.Proofs.Render.Blank
import TableView.Proofs.Render.Blocks
import TableView.Proofs.Sort.Order

/-!
# Grouping by the field that is sorted first

Values of one group key tie in every sort by their field. So when records that stand in the
order of a field are grouped by it, the groups and their members still stand in that order,
and if nothing ties that is not grouped together, no record moves at all.
-/

namespace TableView

namespace Value

variable {a b : Value}

/-- Values of one group key that are not blank are compared as equal. -/
theorem compareTo_of_groupKey_eq (left : a.isBlank = false) (right : b.isBlank = false)
    (same : a.groupKey = b.groupKey) : a.compareTo b = .eq := by
  simp only [groupKey, left, right, Bool.false_eq_true, if_false] at same
  cases a with
  | empty => cases left
  | number x =>
    cases b with
    | number y =>
        rw [compareTo, compareNumbers_eq left right]
        exact Int.compare_eq_eq.2 (Binary64.rank_eq_of_keyWord left right (GroupKey.number.inj same))
    | _ => cases same
  | duration d =>
    cases b with
    | duration e => cases same; exact Int.compare_eq_eq.2 rfl
    | _ => cases same
  | date t =>
    cases b with
    | date u => cases same; exact Int.compare_eq_eq.2 rfl
    | _ => cases same
  | text s =>
    cases b with
    | text t => cases same; exact Std.ReflOrd.compare_self
    | _ => cases same
  | tag s =>
    cases b with
    | tag t => cases same; exact Std.ReflOrd.compare_self
    | _ => cases same
  | list items =>
    cases b with
    | list others => cases same; exact Std.ReflOrd.compare_self
    | _ => cases same
  | boolean x =>
    cases b with
    | boolean y => cases same; exact Nat.compare_eq_eq.2 rfl
    | _ => cases same

end Value

/-- Values of one group key tie in both directions. -/
theorem Direction.compareValues_of_groupKey_eq (d : Direction) {a b : Value}
    (same : a.groupKey = b.groupKey) : d.compareValues a b = .eq := by
  have blank : a.isBlank = b.isBlank := by
    rw [Bool.eq_iff_iff, ← Value.groupKey_eq_blank_iff, ← Value.groupKey_eq_blank_iff, same]
  cases right : b.isBlank with
  | true => simp only [compareValues, blank, right]
  | false =>
      have level := Value.compareTo_of_groupKey_eq (blank.trans right) right same
      simp only [compareValues, blank, right, level]
      cases d <;> rfl

/-- The value that a group is for has the place of the value it was taken from. -/
theorem Direction.compareValues_valueOf (d : Direction) (v w : Value) :
    d.compareValues (Group.valueOf v) (Group.valueOf w) = d.compareValues v w := by
  have empty : Value.empty.isBlank = true := rfl
  cases left : v.isBlank <;> cases right : w.isBlank <;>
    simp [Group.valueOf, compareValues, left, right, empty]

namespace Group

variable {k : SortKey} {records : List Record}

theorem compareRecords_of_groupKey_eq {a b : Record}
    (same : (a.value k.columnKey).groupKey = (b.value k.columnKey).groupKey) :
    k.compareRecords a b = .eq :=
  k.direction.compareValues_of_groupKey_eq same

/-- Grouping by the field that records are sorted by keeps them sorted: members of two groups
tie with the first records of these. -/
theorem members_pairwise (order : OrdersAmong records k.compareRecords)
    (sorted : records.Pairwise fun a b => (k.compareRecords a b).isLE) :
    ((partition k.columnKey records).flatMap (·.members)).Pairwise fun a b =>
      (k.compareRecords a b).isLE := by
  have firsts := representatives_sublist k.columnKey records
  have members : ∀ {first m : Record}, m ∈ (around k.columnKey records first).members →
      m ∈ records ∧ (m.value k.columnKey).groupKey = (first.value k.columnKey).groupKey := by
    intro first m member
    obtain ⟨known, same⟩ := List.mem_filter.1 member
    exact ⟨known, of_decide_eq_true same⟩
  rw [partition, List.flatMap_map, List.pairwise_flatMap]
  refine ⟨fun first _ => sorted.filter _, ?_⟩
  refine (sorted.sublist firsts).imp_of_mem ?_
  intro a b ha hb inOrder x hx y hy
  obtain ⟨knownX, likeA⟩ := members hx
  obtain ⟨knownY, likeB⟩ := members hy
  have before : (k.compareRecords x a).isLE :=
    Ordering.isLE_of_eq_eq (compareRecords_of_groupKey_eq likeA)
  have after : (k.compareRecords b y).isLE :=
    Ordering.isLE_of_eq_eq (compareRecords_of_groupKey_eq likeB.symm)
  have upTo := order.trans knownX (firsts.subset ha) (firsts.subset hb) before inOrder
  exact order.trans knownX (firsts.subset hb) knownY upTo after

/-- The groups themselves stand in the order of their values, and the blank one is last. -/
theorem values_pairwise (sorted : records.Pairwise fun a b => (k.compareRecords a b).isLE) :
    (partition k.columnKey records).Pairwise fun g h =>
      (k.direction.compareValues g.value h.value).isLE ∧ g.value ≠ .empty := by
  rw [partition, List.pairwise_map]
  have inOrder := sorted.sublist (representatives_sublist k.columnKey records)
  refine (inOrder.and (representatives_distinct k.columnKey records)).imp ?_
  intro a b both
  obtain ⟨upTo, distinct⟩ := both
  refine ⟨?_, ?_⟩
  · rw [around, around, k.direction.compareValues_valueOf]
    exact upTo
  · intro empty
    have blank : (a.value k.columnKey).isBlank = true := valueOf_eq_empty_iff.1 empty
    have blankNext := k.direction.isBlank_of_isLE upTo blank
    exact distinct ((Value.groupKey_eq_blank_iff.2 blank).trans
      (Value.groupKey_eq_blank_iff.2 blankNext).symm)

/-- If records tie in the sort only with records of their group, grouping moves nothing. -/
theorem members_eq_self (records : List Record) (order : OrdersAmong records k.compareRecords)
    (sorted : records.Pairwise fun a b => (k.compareRecords a b).isLE)
    (apart : ∀ a ∈ records, ∀ b ∈ records, k.compareRecords a b = .eq →
      (a.value k.columnKey).groupKey = (b.value k.columnKey).groupKey) :
    (partition k.columnKey records).flatMap (·.members) = records := by
  match records with
  | [] => rfl
  | r :: rest =>
      obtain ⟨least, sortedRest⟩ := List.pairwise_cons.1 sorted
      have left : (others k.columnKey r rest).length < (r :: rest).length :=
        Nat.lt_succ_of_le (List.length_filter_le _ rest)
      have subset : others k.columnKey r rest ⊆ r :: rest :=
        List.Subset.trans List.filter_sublist.subset (List.subset_cons_self r rest)
      have tail := members_eq_self (others k.columnKey r rest) (order.mono subset)
        (sortedRest.filter _) fun a ha b hb => apart a (subset ha) b (subset hb)
      -- What stands between two records of one group ties with both.
      have together : rest.Pairwise fun a b =>
          decide ((b.value k.columnKey).groupKey = (r.value k.columnKey).groupKey) = true →
            decide ((a.value k.columnKey).groupKey = (r.value k.columnKey).groupKey) = true := by
        refine sortedRest.imp_of_mem ?_
        intro a b ha hb inOrder same
        have memA := List.mem_cons_of_mem r ha
        have memB := List.mem_cons_of_mem r hb
        have back : (k.compareRecords b r).isLE :=
          Ordering.isLE_of_eq_eq (compareRecords_of_groupKey_eq (of_decide_eq_true same))
        have forth : (k.compareRecords r a).isLE := least a ha
        have ties := order.eq_of_isLE memA List.mem_cons_self
          (order.trans memA memB List.mem_cons_self inOrder back) forth
        exact decide_eq_true (apart a memA r List.mem_cons_self ties)
      rw [partition_members_cons, tail, others, List.cons_append]
      congr 1
      simpa only [ne_eq, decide_not] using filter_append_of_pairwise together
termination_by records.length
decreasing_by exact left

end Group

namespace Renderer

/-- If rows are grouped by the field of the first key that the schema allows, and the values
of every such field are measured on one scale, the records stand in the order of that key, and
so do the summaries, with that of the blank group last. If no two records that tie on the key
belong to different groups, grouping moves no record. -/
theorem rows_sorted_of_grouping (r : Renderer) (v : View) (records : List Record) (key : String)
    (k : SortKey) (rest : List SortKey) (grouped : r.grouping v = some key)
    (allowed : (SortKey.allowed (r.schema v) v.sortKeys).1 = k :: rest)
    (onKey : k.columnKey = key)
    (fits : ∀ other ∈ k :: rest, Commensurable (r.kept v records) other.columnKey) :
    let rows := (r.render v records).rows
    (rows.filterMap (·.record?)).Pairwise (fun a b => (k.compareRecords a b).isLE) ∧
      (rows.filterMap (·.summary?)).Pairwise (fun s t =>
        (k.direction.compareValues s.key t.key).isLE ∧ s.key ≠ .empty) ∧
      ((∀ a ∈ r.kept v records, ∀ b ∈ r.kept v records, k.compareRecords a b = .eq →
          (a.value key).groupKey = (b.value key).groupKey) →
        rows.filterMap (·.record?) =
          SortKey.sort (SortKey.allowed (r.schema v) v.sortKeys).1 (r.kept v records)) := by
  subst onKey
  intro rows
  have arranged : rows = Group.arrange (some k.columnKey) v.columns
      (SortKey.sort (k :: rest) (r.kept v records)) r.layout := by
    rw [← allowed, ← grouped]
    rfl
  have perm := SortKey.sort_perm (k :: rest) (r.kept v records)
  have sorted := SortKey.sort_pairwise_first fits
  have order := (SortKey.ordersAmong (fits k List.mem_cons_self)).mono perm.subset
  rw [arranged, Group.filterMap_record?_arrange, Group.filterMap_summary?_arrange, allowed]
  refine ⟨Group.members_pairwise order sorted, ?_, ?_⟩
  · simp only [Group.blocks, List.map_map, List.pairwise_map]
    exact Group.values_pairwise sorted
  · intro apart
    refine Group.members_eq_self _ order sorted ?_
    intro a ha b hb
    exact apart a (perm.subset ha) b (perm.subset hb)

/-- Three peers, one of them without a setting, sorted and grouped by how they reconnect. -/
theorem rows_sorted_of_grouping_peers :
    let k : SortKey := ⟨"setting", .descending⟩
    let v : View := { View.plain "By setting" Catalog.peersColumns with
      sortKeys := [k]
      groupBy := some "setting" }
    let peer (id setting : String) : Record := (Record.empty id).set "setting" (.tag setting)
    let records := [Record.empty "1", peer "2" "AlwaysReconnect", peer "3" "DisableReconnect"]
    let rows := (plain.render v records).rows
    plain.grouping v = some k.columnKey ∧
      (SortKey.allowed (plain.schema v) v.sortKeys).1 = [k] ∧
      Commensurable (plain.kept v records) k.columnKey ∧
      (rows.filterMap (·.record?)).Pairwise (fun a b => (k.compareRecords a b).isLE) ∧
      (rows.filterMap (·.summary?)).Pairwise (fun s t =>
        (k.direction.compareValues s.key t.key).isLE ∧ s.key ≠ .empty) ∧
      rows.filterMap (·.record?) = SortKey.sort [k] (plain.kept v records) := by
  intro k v peer records rows
  have grouped : plain.grouping v = some k.columnKey := by decide
  have allowed : (SortKey.allowed (plain.schema v) v.sortKeys).1 = [k] := by decide
  have kept : plain.kept v records = records := by decide
  have fits : Commensurable (plain.kept v records) k.columnKey := by
    rw [kept]
    refine .inl ?_
    simp [records, peer, k, Record.value]
  have apart : ∀ a ∈ plain.kept v records, ∀ b ∈ plain.kept v records,
      k.compareRecords a b = .eq →
        (a.value k.columnKey).groupKey = (b.value k.columnKey).groupKey := by
    rw [kept]
    decide
  obtain ⟨sortedRecords, sortedSummaries, unmoved⟩ := plain.rows_sorted_of_grouping v records
    k.columnKey k [] grouped allowed rfl (List.forall_mem_singleton.2 fits)
  rw [allowed] at unmoved
  exact ⟨grouped, allowed, fits, sortedRecords, sortedSummaries, unmoved apart⟩

end Renderer

end TableView
