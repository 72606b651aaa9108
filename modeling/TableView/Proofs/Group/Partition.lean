import Mathlib.Data.List.Nodup
import Mathlib.Data.List.Perm.Basic
import TableView.Group

/-!
# Every record is in one group

Grouping rearranges records and loses none of them. The first records of the groups
carry this: they have pairwise different group keys, and between them the group keys
of all records. So each record is a member of the group of exactly one of them, and
the members of all groups together are the records again.
-/

namespace TableView

theorem Value.groupKey_eq_blank_iff {v : Value} : v.groupKey = .blank ↔ v.isBlank = true := by
  rw [groupKey.eq_def]
  split
  next blank => simp [blank]
  next present => cases v <;> simp_all [isBlank, isEmpty]

namespace Group

variable {key : String} {records : List Record} {r : Record} {g : Group}

/-- The value that a group is for has the group key of the value it was taken from. -/
theorem groupKey_valueOf (v : Value) : (valueOf v).groupKey = v.groupKey := by
  rw [valueOf]
  split
  next blank =>
    rw [Value.groupKey.eq_def v, if_pos blank]
    rfl
  next => rfl

theorem representatives_sublist (key : String) (records : List Record) :
    (representatives key records).Sublist records := by
  induction records with
  | nil => exact .slnil
  | cons r rest ih => exact (List.filter_sublist.trans ih).cons_cons r

theorem representatives_distinct (key : String) (records : List Record) :
    (representatives key records).Pairwise fun a b =>
      (a.value key).groupKey ≠ (b.value key).groupKey := by
  induction records with
  | nil => exact .nil
  | cons r rest ih =>
      refine List.pairwise_cons.2 ⟨?_, ih.filter _⟩
      intro other mem
      have differs := (List.mem_filter.1 mem).2
      exact Ne.symm (of_decide_eq_true differs)

/-- Leaving out all records of some group keys leaves out the groups that begin with them. -/
theorem representatives_filter (key : String) (keep : GroupKey → Bool) (records : List Record) :
    representatives key (records.filter fun r => keep (r.value key).groupKey) =
      (representatives key records).filter fun r => keep (r.value key).groupKey := by
  induction records with
  | nil => rfl
  | cons r rest ih =>
      cases kept : keep (r.value key).groupKey with
      | true => simp [kept, representatives, ih, List.filter_filter, Bool.and_comm]
      | false =>
          -- Whatever is kept differs from a record that is not.
          have differs : ∀ other : Record, keep (other.value key).groupKey = true →
              (other.value key).groupKey ≠ (r.value key).groupKey := by
            intro other keptOther same
            rw [same, kept] at keptOther
            cases keptOther
          simp only [List.filter_cons, kept, Bool.false_eq_true, if_false, ih, representatives,
            List.filter_filter]
          refine List.filter_congr ?_
          intro other _
          cases keptOther : keep (other.value key).groupKey with
          | true => simp [differs other keptOther]
          | false => rfl

/-- The records whose group key is not that of a given one. -/
def others (key : String) (r : Record) (records : List Record) : List Record :=
  records.filter fun other => (other.value key).groupKey ≠ (r.value key).groupKey

/-- The first group is that of the first record, and the others are those of what is left. -/
theorem partition_cons (key : String) (r : Record) (rest : List Record) :
    partition key (r :: rest) =
      around key (r :: rest) r :: partition key (others key r rest) := by
  have firsts := representatives_filter key (· ≠ (r.value key).groupKey) rest
  rw [partition, representatives, List.map_cons, partition, others, firsts]
  congr 1
  refine List.map_congr_left ?_
  intro first mem
  have differs : (first.value key).groupKey ≠ (r.value key).groupKey :=
    of_decide_eq_true (List.mem_filter.1 mem).2
  simp only [around, List.filter_filter]
  congr 1
  rw [List.filter_cons_of_neg (by simpa using Ne.symm differs)]
  refine List.filter_congr ?_
  intro other _
  by_cases same : (other.value key).groupKey = (first.value key).groupKey
  · simp [same, differs]
  · simp [same]

/-- The members of the first group come before those of the others. -/
theorem partition_members_cons (key : String) (r : Record) (rest : List Record) :
    (partition key (r :: rest)).flatMap (·.members) =
      r :: rest.filter (fun other => (other.value key).groupKey = (r.value key).groupKey) ++
        (partition key (others key r rest)).flatMap (·.members) := by
  have first : (around key (r :: rest) r).members =
      r :: rest.filter fun other => (other.value key).groupKey = (r.value key).groupKey := by
    simp [around]
  rw [partition_cons, List.flatMap_cons, first]

theorem partition_members_perm (key : String) (records : List Record) :
    ((partition key records).flatMap (·.members)).Perm records := by
  match records with
  | [] => exact .nil
  | r :: rest =>
      have left : (others key r rest).length < (r :: rest).length :=
        Nat.lt_succ_of_le (List.length_filter_le _ rest)
      have tail := partition_members_perm key (others key r rest)
      rw [partition_members_cons]
      refine (tail.append_left _).trans ?_
      simpa only [others, List.cons_append, ne_eq, decide_not] using (List.filter_append_perm
        (fun other : Record => decide ((other.value key).groupKey = (r.value key).groupKey))
        rest).cons r
termination_by records.length
decreasing_by exact left

/-- The members of a group keep their order: those with one group key are the records with it. -/
theorem partition_members_filter (key : String) (own : GroupKey) (records : List Record) :
    ((partition key records).flatMap (·.members)).filter
        (fun r => (r.value key).groupKey = own) =
      records.filter fun r => (r.value key).groupKey = own := by
  match records with
  | [] => rfl
  | r :: rest =>
      have left : (others key r rest).length < (r :: rest).length :=
        Nat.lt_succ_of_le (List.length_filter_le _ rest)
      have tail := partition_members_filter key own (others key r rest)
      rw [partition_members_cons, List.filter_append, tail, others, List.filter_filter]
      by_cases here : (r.value key).groupKey = own
      · subst here
        simp [List.filter_filter]
      · -- The first group has none of these records, and what is left has them all.
        have apart : own ≠ (r.value key).groupKey := Ne.symm here
        have first : (r :: rest.filter fun other =>
            (other.value key).groupKey = (r.value key).groupKey).filter
              (fun r => (r.value key).groupKey = own) = [] := by
          rw [List.filter_cons_of_neg (by simpa using here), List.filter_filter,
            List.filter_eq_nil_iff]
          intro other _
          by_cases same : (other.value key).groupKey = own <;> simp [same, apart]
        rw [first, List.nil_append, List.filter_cons_of_neg (by simpa using here)]
        refine List.filter_congr ?_
        intro other _
        by_cases same : (other.value key).groupKey = own <;> simp [same, apart]
termination_by records.length
decreasing_by exact left

theorem partition_distinct (key : String) (records : List Record) :
    ((partition key records).map (·.value.groupKey)).Nodup := by
  have keys : (partition key records).map (·.value.groupKey) =
      (representatives key records).map fun r => (r.value key).groupKey := by
    simp only [partition, List.map_map, around, Function.comp_def, groupKey_valueOf]
  rw [keys, List.Nodup, List.pairwise_map]
  exact representatives_distinct key records

theorem mem_partition (mem : g ∈ partition key records) :
    g.members ≠ [] ∧ ∀ m ∈ g.members, (m.value key).groupKey = g.value.groupKey := by
  obtain ⟨first, found, rfl⟩ := List.mem_map.1 mem
  constructor
  · have known := (representatives_sublist key records).subset found
    exact List.ne_nil_of_mem (List.mem_filter.2 ⟨known, decide_eq_true rfl⟩)
  · intro m member
    rw [around, groupKey_valueOf]
    exact of_decide_eq_true (List.mem_filter.1 member).2

/-- The group keys of the groups are those of the records. -/
theorem forall_mem_partition_iff {P : GroupKey → Prop} :
    (∀ g ∈ partition key records, P g.value.groupKey) ↔
      ∀ r ∈ records, P (r.value key).groupKey := by
  have members := partition_members_perm key records
  constructor
  · intro groups r mem
    obtain ⟨g, found, member⟩ := List.mem_flatMap.1 (members.mem_iff.2 mem)
    rw [(mem_partition found).2 r member]
    exact groups g found
  · intro values g found
    obtain ⟨r, member⟩ := List.exists_mem_of_ne_nil _ (mem_partition found).1
    have known : r ∈ records := members.mem_iff.1 (List.mem_flatMap.2 ⟨g, found, member⟩)
    rw [← (mem_partition found).2 r member]
    exact values r known

end Group

end TableView
