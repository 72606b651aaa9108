import TableView.Proofs.Group.Lookup

/-!
# Grouping with a table of slots

Records are grouped in one pass. A table gives each key the slot of its group in a growing
list, and every record is put into the group at its slot. The groups are at all times those
of the records so far, and the table knows the slots of just these groups
(`Slots.Tracks`), so that no slot it gives out is beyond the list.
-/

namespace TableView.Group

/-- The group with one member more. -/
def extend (g : Group) (r : Record) : Group := { g with members := g.members ++ [r] }

/-- Grouping under way: the groups so far, and the table of their slots. -/
structure Slots where
  table : Std.HashMap LookupKey Nat
  groups : List Group

namespace Slots

/-- Before the first record there are no groups. -/
def start : Slots := ⟨∅, []⟩

/-- The slot of a value: that of the values alike, or else a new one at the end. -/
def enter (s : Slots) (v : Value) : Nat × Slots :=
  match s.table[v.lookupKey]? with
  | some slot => (slot, s)
  | none =>
    let slot := s.groups.length
    (slot, ⟨s.table.insert v.lookupKey slot, s.groups ++ [⟨valueOf v, []⟩]⟩)

/-- Puts a record into the group at a slot, if there is a group. -/
def put? (s : Slots) (slot : Nat) (r : Record) : Option Slots :=
  if slot < s.groups.length then
    some { s with groups := s.groups.modify slot (·.extend r) }
  else none

/-- Puts a record into the group of its value under a key. -/
def add? (key : String) (s : Slots) (r : Record) : Option Slots :=
  let (slot, entered) := s.enter (r.value key)
  entered.put? slot r

/-- Groups records one after the other. -/
def run? (key : String) (records : List Record) : Option Slots := records.foldlM (add? key) start

end Slots

variable {key : String} {records : List Record} {r : Record}

/-- The group keys of the groups, in order. -/
def keys (groups : List Group) : List GroupKey := groups.map (·.value.groupKey)

theorem mem_keys_partition {k : GroupKey} :
    k ∈ keys (partition key records) ↔ ∃ r ∈ records, (r.value key).groupKey = k := by
  have absent : (∀ g ∈ partition key records, g.value.groupKey ≠ k) ↔
      ∀ r ∈ records, (r.value key).groupKey ≠ k := forall_mem_partition_iff (P := (· ≠ k))
  simpa [keys] using not_congr absent

/-- The first records stay the first of their groups, and a record alike none of them is one
more. -/
theorem representatives_concat (key : String) (records : List Record) (r : Record) :
    representatives key (records ++ [r]) = representatives key records ++
      if ∃ other ∈ records, (other.value key).groupKey = (r.value key).groupKey then [] else [r] := by
  induction records with
  | nil => simp [representatives]
  | cons first rest ih =>
      rw [List.cons_append, representatives, ih, List.filter_append, representatives,
        List.cons_append]
      congr 2
      by_cases known : ∃ other ∈ rest, (other.value key).groupKey = (r.value key).groupKey
      · simp [known]
      · by_cases same : (first.value key).groupKey = (r.value key).groupKey
        · simp [known, same]
        · simp [known, same, Ne.symm same]

/-- The members of a group with one record more, if that is alike. -/
theorem around_concat (key : String) (records : List Record) (r first : Record) :
    around key (records ++ [r]) first =
      if (r.value key).groupKey = (first.value key).groupKey then
        (around key records first).extend r
      else around key records first := by
  by_cases alike : (r.value key).groupKey = (first.value key).groupKey
  · simp [around, Group.extend, List.filter_append, alike]
  · simp [around, List.filter_append, alike]

/-- A record that is alike none so far makes a new group at the end. -/
theorem partition_concat_of_new (new : (r.value key).groupKey ∉ keys (partition key records)) :
    partition key (records ++ [r]) =
      partition key records ++ [⟨valueOf (r.value key), [r]⟩] := by
  rw [mem_keys_partition] at new
  have alone : around key (records ++ [r]) r = ⟨valueOf (r.value key), [r]⟩ := by
    have none : records.filter (fun other =>
        (other.value key).groupKey = (r.value key).groupKey) = [] := by
      rw [List.filter_eq_nil_iff]
      intro other mem alike
      exact new ⟨other, mem, of_decide_eq_true alike⟩
    simp [around, List.filter_append, none]
  rw [partition, representatives_concat, if_neg new, List.map_append, List.map_singleton, alone]
  congr 1
  apply List.map_congr_left
  intro first mem
  have known := (representatives_sublist key records).subset mem
  rw [around_concat, if_neg fun alike => new ⟨first, known, alike.symm⟩]

/-- Changing the item at a position is changing all items with its key, if no other has it. -/
theorem modify_eq_map [DecidableEq β] (keyOf : α → β) (f : α → α) {l : List α} {i : Nat} {a : α}
    (distinct : (l.map keyOf).Nodup) (here : l[i]? = some a) :
    l.modify i f = l.map fun b => if keyOf b = keyOf a then f b else b := by
  induction l generalizing i with
  | nil => simp at here
  | cons b rest ih =>
      obtain ⟨new, distinctRest⟩ := List.nodup_cons.1 distinct
      cases i with
      | zero =>
          obtain rfl : b = a := by simpa using here
          have differ : ∀ c ∈ rest, keyOf c ≠ keyOf b := fun c mem same =>
            new (same ▸ List.mem_map_of_mem mem)
          have others : rest.map (fun c => if keyOf c = keyOf b then f c else c) = rest :=
            (List.map_congr_left fun c mem => if_neg (differ c mem)).trans (List.map_id' rest)
          simp [others]
      | succ i =>
          have inRest : rest[i]? = some a := by simpa using here
          have differs : keyOf b ≠ keyOf a := fun same =>
            new (same ▸ List.mem_map_of_mem (List.mem_of_getElem? inRest))
          simp [differs, ih distinctRest inRest]

/-- A record alike those of a group becomes a member of it. -/
theorem partition_concat_of_known {slot : Nat} {g : Group}
    (here : (partition key records)[slot]? = some g)
    (alike : g.value.groupKey = (r.value key).groupKey) :
    partition key (records ++ [r]) =
      (partition key records).modify slot (·.extend r) := by
  have known : ∃ other ∈ records, (other.value key).groupKey = (r.value key).groupKey := by
    rw [← mem_keys_partition, ← alike]
    exact List.mem_map_of_mem (List.mem_of_getElem? here)
  rw [modify_eq_map (·.value.groupKey) _ (partition_distinct key records) here, partition,
    representatives_concat, if_pos known, List.append_nil, partition, List.map_map]
  apply List.map_congr_left
  intro first _
  have key_around : (around key records first).value.groupKey = (first.value key).groupKey :=
    groupKey_valueOf _
  rw [around_concat, Function.comp_apply, key_around, alike]
  simp only [eq_comm]

theorem keys_modify (groups : List Group) (slot : Nat) (r : Record) :
    keys (groups.modify slot (·.extend r)) = keys groups := by
  apply List.ext_getElem?
  intro i
  simp only [keys, List.getElem?_map, List.getElem?_modify]
  cases groups[i]? with
  | none => rfl
  | some g => by_cases here : slot = i <;> simp [here, Group.extend]

theorem modify_length_concat (l : List α) (a : α) (f : α → α) :
    (l ++ [a]).modify l.length f = l ++ [f a] := by
  induction l with
  | nil => rfl
  | cons b rest ih => simp [ih]

theorem getElem?_concat_eq_some_iff {l : List α} {a b : α} {i : Nat} :
    (l ++ [a])[i]? = some b ↔ l[i]? = some b ∨ i = l.length ∧ a = b := by
  rw [List.getElem?_append]
  split
  next inside => simp [Nat.ne_of_lt inside]
  next beyond =>
    have none : l[i]? = none := List.getElem?_eq_none (Nat.le_of_not_lt beyond)
    have last : i - l.length = 0 ↔ i = l.length := by omega
    simp [none, List.getElem?_singleton, last]

namespace Slots

variable {s : Slots} {v : Value} {slot : Nat}

/-- Whether the groups are those of some records, and the table gives out the slots of just
their keys. -/
structure Tracks (s : Slots) (key : String) (records : List Record) : Prop where
  groups : s.groups = partition key records
  table : ∀ (v : Value) (slot : Nat),
    s.table[v.lookupKey]? = some slot ↔ (keys s.groups)[slot]? = some v.groupKey

theorem start_tracks (key : String) : start.Tracks key [] where
  groups := rfl
  table v slot := by simp [start, keys]

theorem Tracks.slot_lt (tracks : s.Tracks key records) (found : s.table[v.lookupKey]? = some slot) :
    slot < s.groups.length := by
  have here := (tracks.table v slot).1 found
  rw [keys] at here
  simpa using (List.getElem?_eq_some_iff.1 here).1

theorem add_of_found (found : s.table[(r.value key).lookupKey]? = some slot)
    (inRange : slot < s.groups.length) :
    s.add? key r = some { s with groups := s.groups.modify slot (·.extend r) } := by
  simp only [add?, enter, found, put?, if_pos inRange]

theorem add_of_new (new : s.table[(r.value key).lookupKey]? = none) :
    s.add? key r = some ⟨s.table.insert (r.value key).lookupKey s.groups.length,
      s.groups ++ [⟨valueOf (r.value key), [r]⟩]⟩ := by
  have inRange : s.groups.length < (s.groups ++ [(⟨valueOf (r.value key), []⟩ : Group)]).length := by
    simp
  simp only [add?, enter, new, put?, if_pos inRange, modify_length_concat]
  rfl

/-- Taking in a record succeeds, and gives the groups of the records with that one. -/
theorem Tracks.add (tracks : s.Tracks key records) (r : Record) :
    ∃ t, s.add? key r = some t ∧ t.Tracks key (records ++ [r]) := by
  cases found : s.table[(r.value key).lookupKey]? with
  | some slot =>
      have known := (tracks.table _ _).1 found
      rw [keys, List.getElem?_map, Option.map_eq_some_iff] at known
      obtain ⟨g, here, alike⟩ := known
      refine ⟨_, add_of_found found (tracks.slot_lt found), ?_, ?_⟩
      · rw [tracks.groups] at here
        rw [partition_concat_of_known here alike, tracks.groups]
      · intro v other
        rw [tracks.table, keys_modify]
  | none =>
      have absent : (r.value key).groupKey ∉ keys s.groups := by
        intro mem
        obtain ⟨slot, here⟩ := List.mem_iff_getElem?.1 mem
        rw [← tracks.table, found] at here
        cases here
      refine ⟨_, add_of_new found, ?_, ?_⟩
      · rw [tracks.groups] at absent ⊢
        exact (partition_concat_of_new absent).symm
      · intro v slot
        have last : keys (s.groups ++ [⟨valueOf (r.value key), [r]⟩]) =
            keys s.groups ++ [(r.value key).groupKey] := by
          simp [keys, groupKey_valueOf]
        rw [last, getElem?_concat_eq_some_iff, ← tracks.table, Std.HashMap.getElem?_insert]
        by_cases alike : (r.value key).groupKey = v.groupKey
        · have none : s.table[v.lookupKey]? ≠ some slot := by
            rw [ne_eq, tracks.table, ← alike]
            exact fun here => absent (List.mem_of_getElem? here)
          rw [if_pos (Value.lookupKey_beq_iff.2 alike)]
          simp [alike, none, keys, eq_comm]
        · rw [if_neg (mt Value.lookupKey_beq_iff.1 alike)]
          simp [alike]

/-- The pass over records succeeds, and what it builds are the groups of the records. -/
theorem run_tracks (key : String) (records : List Record) :
    ∃ s, run? key records = some s ∧ s.Tracks key records := by
  suffices go : ∀ (rest before : List Record) (s : Slots), s.Tracks key before →
      ∃ t, rest.foldlM (add? key) s = some t ∧ t.Tracks key (before ++ rest) by
    exact go records [] start (start_tracks key)
  intro rest
  induction rest with
  | nil => intro before s tracks; exact ⟨s, rfl, by simpa using tracks⟩
  | cons r rest ih =>
      intro before s tracks
      obtain ⟨next, added, tracksNext⟩ := tracks.add r
      obtain ⟨t, finished, tracksAll⟩ := ih (before ++ [r]) next tracksNext
      refine ⟨t, ?_, by simpa using tracksAll⟩
      rw [List.foldlM_cons, added]
      exact finished

end Slots

instance (v w : Value) : Decidable (v.GroupsWith w) := decidable_of_iff _ Value.groupKey_eq_iff

/-- The position of the first record that belongs to a group. -/
def firstPosition (key : String) (records : List Record) (g : Group) : Nat :=
  records.findIdx fun r => (r.value key).GroupsWith g.value

/-- Whether groups are the parts that records fall into by a field. Each has the records that
belong with its value, in their order, and the value of the first of them. No two groups belong
together, and they stand in the order in which their first members come. -/
structure IsPartition (key : String) (records : List Record) (groups : List Group) : Prop where
  members : ∀ g ∈ groups,
    g.members = records.filter fun r => (r.value key).GroupsWith g.value
  value : ∀ g ∈ groups, ∃ first, g.members.head? = some first ∧
    records[firstPosition key records g]? = some first ∧ g.value = valueOf (first.value key)
  apart : groups.Pairwise fun g h => ¬ g.value.GroupsWith h.value
  exactlyOne : ∀ r ∈ records, ∃! g, g ∈ groups ∧ r ∈ g.members
  complete : (groups.flatMap (·.members)).Perm records
  inOrder : groups.Pairwise fun g h => firstPosition key records g < firstPosition key records h

theorem head?_around {first : Record} (mem : first ∈ representatives key records) :
    (around key records first).members.head? = some first := by
  induction records with
  | nil => cases mem
  | cons r rest ih =>
      rw [representatives, List.mem_cons] at mem
      obtain rfl | later := mem
      · simp [around]
      · obtain ⟨inRest, differs⟩ := List.mem_filter.1 later
        have other : (r.value key).groupKey ≠ (first.value key).groupKey :=
          Ne.symm (of_decide_eq_true differs)
        simpa [around, other] using ih inRest

theorem groupsWith_around (v : Value) (first : Record) :
    v.GroupsWith (around key records first).value ↔
      v.groupKey = (first.value key).groupKey := by
  rw [← Value.groupKey_eq_iff, around, groupKey_valueOf]

theorem getElem?_findIdx (p : α → Bool) (l : List α) : l[l.findIdx p]? = (l.filter p).head? := by
  induction l with
  | nil => rfl
  | cons a rest ih => cases holds : p a <;> simp [List.findIdx_cons, holds, ih]

/-- The first records of the groups come in the order in which values alike are first seen. -/
theorem representatives_inOrder (key : String) (records : List Record) :
    (representatives key records).Pairwise fun a b =>
      (records.findIdx fun r => (r.value key).groupKey = (a.value key).groupKey) <
        records.findIdx fun r => (r.value key).groupKey = (b.value key).groupKey := by
  induction records with
  | nil => exact .nil
  | cons r rest ih =>
      have later : ∀ a ∈ others key r (representatives key rest),
          (r.value key).groupKey ≠ (a.value key).groupKey := by
        intro a mem
        exact Ne.symm (of_decide_eq_true (List.mem_filter.1 mem).2)
      refine List.pairwise_cons.2 ⟨?_, ?_⟩
      · intro b memB
        simp [List.findIdx_cons, later b memB]
      · apply (ih.filter _).imp_of_mem
        intro a b memA memB before
        simpa [List.findIdx_cons, later a memA, later b memB] using before

/-- Grouping splits the records into the groups of their values. The pass that builds the
groups finds for every record a slot among them, and so does its table at any time. -/
theorem partition_isPartition (key : String) (records : List Record) :
    IsPartition key records (partition key records) ∧
      ∃ slots, Slots.run? key records = some slots ∧ slots.groups = partition key records ∧
        ∀ (v : Value) (slot : Nat), slots.table[v.lookupKey]? = some slot →
          slot < slots.groups.length := by
  have members : ∀ g ∈ partition key records,
      g.members = records.filter fun r => (r.value key).GroupsWith g.value := by
    intro g mem
    obtain ⟨first, -, rfl⟩ := List.mem_map.1 mem
    simp only [groupsWith_around]
    rfl
  have perm := partition_members_perm key records
  have apart : (partition key records).Pairwise fun g h => ¬ g.value.GroupsWith h.value := by
    simp only [← Value.groupKey_eq_iff]
    exact List.pairwise_map.1 (partition_distinct key records)
  obtain ⟨slots, run, tracks⟩ := Slots.run_tracks key records
  refine ⟨⟨members, ?_, apart, ?_, perm, ?_⟩, slots, run, tracks.groups, ?_⟩
  · intro g mem
    obtain ⟨first, found, rfl⟩ := List.mem_map.1 mem
    refine ⟨first, head?_around found, ?_, rfl⟩
    rw [firstPosition, getElem?_findIdx, ← members _ mem, head?_around found]
  · intro r mem
    obtain ⟨g, found, member⟩ := List.mem_flatMap.1 (perm.mem_iff.2 mem)
    refine ⟨g, ⟨found, member⟩, ?_⟩
    rintro h ⟨foundH, memberH⟩
    have sameKey : h.value.groupKey = g.value.groupKey :=
      ((mem_partition foundH).2 r memberH).symm.trans ((mem_partition found).2 r member)
    exact List.inj_on_of_nodup_map (partition_distinct key records) foundH found sameKey
  · rw [partition, List.pairwise_map]
    simp only [firstPosition, groupsWith_around]
    exact representatives_inOrder key records
  · intro v slot found
    exact tracks.slot_lt found

/-- What is not a number is grouped with what is missing, and both zeros together. -/
example :
    let amount (id : String) (x : Binary64) : Record := (Record.empty id).set "amt" (.number x)
    let records := [amount "1" .nan, amount "2" (.zero true), .empty "3", amount "4" (.zero false)]
    (partition "amt" records).map (fun g => (g.value, g.members.map (·.id))) =
      [(.empty, ["1", "3"]), (.number (.zero true), ["2", "4"])] := by
  decide

end TableView.Group
