import TableView.Json.Decode
import TableView.Proofs.ItemByItem

/-!
# Parts of a tree

A decoder looks at a tree from the outside in: whatever it decodes next is an item of the array or
the value of a member of the object that it has before it (`Json.IsPart`). What holds of all parts
of a tree therefore holds of all fields that it spells, of its list items and of the content beside
its tag.
-/

namespace TableView.Json

/-- Whether a tree is an item or the value of a member of another. -/
inductive IsPart : Json → Json → Prop where
  | item {c : Json} {items : List Json} (mem : c ∈ items) : IsPart c (arr items)
  | member {m : String × Json} {members : List (String × Json)} (mem : m ∈ members) :
      IsPart m.2 (obj members)

variable {v c : Json} {access : Access} {name tag content : String} {names : List String}

/-- What is decoded item by item is decoded from parts of the tree. -/
theorem exists_of_list? {decode : Json → Option α} {as : List α} (read : v.list? decode = some as)
    {a : α} (mem : a ∈ as) : ∃ part, part.IsPart v ∧ decode part = some a := by
  cases v with
  | arr items =>
      obtain ⟨item, known, found⟩ := exists_of_mapM read mem
      exact ⟨item, .item known, found⟩
  | _ => cases read

namespace Fields

variable {fields : Fields} {P : Json → Prop} {decode : Json → Option α} {a value : α}

/-- Whether something holds of all fields that a tree spells. -/
def All (P : Json → Prop) (fields : Fields) : Prop := ∀ m ∈ fields.entries, P m.2

theorem All.imp {Q : Json → Prop} (imp : ∀ c, P c → Q c) (all : fields.All P) : fields.All Q :=
  fun m mem => imp m.2 (all m mem)

theorem All.of_get? (all : fields.All P) (found : fields.get? name = some c) : P c := by
  obtain ⟨before, after, entries, -⟩ := List.lookup_eq_some_iff.1 found
  exact all (name, c) (by rw [entries]; exact List.mem_append_right _ List.mem_cons_self)

theorem All.exists_of_required? (all : fields.All P)
    (read : fields.required? name decode = some a) : ∃ part, P part ∧ decode part = some a := by
  obtain ⟨part, found, decoded⟩ := Option.bind_eq_some_iff.1 read
  exact ⟨part, all.of_get? found, decoded⟩

theorem All.exists_of_withDefault? (all : fields.All P)
    (read : fields.withDefault? name value decode = some a) :
    a = value ∨ ∃ part, P part ∧ decode part = some a := by
  rw [withDefault?] at read
  split at read
  next part found => exact .inr ⟨part, all.of_get? found, read⟩
  next => exact .inl (Option.some.inj read).symm

end Fields

theorem all_isPart_of_fields? {fields : Fields} (spelled : v.fields? names = some fields) :
    fields.All (·.IsPart v) := by
  cases v with
  | obj members =>
      simp only [fields?, Option.ite_none_right_eq_some] at spelled
      obtain ⟨-, same⟩ := spelled
      obtain rfl := Option.some.inj same
      exact fun m mem => .member mem
  | arr items =>
      simp only [fields?, Option.ite_none_right_eq_some] at spelled
      obtain ⟨-, same⟩ := spelled
      obtain rfl := Option.some.inj same
      exact fun m mem => .item (List.of_mem_zip mem).2
  | _ => cases spelled

theorem isPart_of_taggedContent? {tagged : Tagged}
    (read : v.taggedContent? access tag content names = some tagged)
    (found : tagged.content = some c) : c.IsPart v := by
  cases v with
  | obj members =>
      simp only [taggedContent?] at read
      split at read
      next =>
        obtain ⟨_, -, rfl⟩ := Option.map_eq_some_iff.1 read
        cases found
      next key part _ only =>
        have beside : (key, part) ∈ members.filter fun m => m.1 == content := by
          rw [only]
          exact List.mem_singleton_self (key, part)
        have taken : tagged.content = some part := by
          split at read
          next =>
            obtain ⟨-, read⟩ := Option.ite_none_right_eq_some.1 read
            obtain ⟨_, -, rfl⟩ := Option.map_eq_some_iff.1 read
            rfl
          next =>
            obtain ⟨_, -, rfl⟩ := Option.map_eq_some_iff.1 read
            rfl
        obtain rfl : part = c := Option.some.inj (taken.symm.trans found)
        exact IsPart.member (m := (key, part)) (List.mem_filter.1 beside).1
      next => cases read
  | arr items =>
      unfold taggedContent? at read
      split at read
      next same => cases same
      next t part same =>
        cases same
        obtain ⟨_, -, rfl⟩ := Option.map_eq_some_iff.1 read
        cases found
        exact .item (by simp)
      next => cases read
  | _ => cases read

end TableView.Json
