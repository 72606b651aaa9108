import TableView.Value

/-!
# Records

A record is an identified set of fields. Fields are kept as entries in the order
in which their keys were first set, and a key has one value.
-/

namespace TableView

namespace Entries

/-- Sets the value of a key: in its place if it has one, else at the end. -/
def put (key : String) (value : α) : List (String × α) → List (String × α)
  | [] => [(key, value)]
  | (k, v) :: rest => if k = key then (k, value) :: rest else (k, v) :: put key value rest

theorem lookup_put_self (key : String) (value : α) (entries : List (String × α)) :
    (put key value entries).lookup key = some value := by
  induction entries with
  | nil => simp [put]
  | cons entry rest ih =>
    obtain ⟨k, v⟩ := entry
    simp only [put]
    split
    · next h => subst h; simp
    · next h => simpa [List.lookup_cons, beq_eq_false_iff_ne.2 (Ne.symm h)] using ih

theorem lookup_put_of_ne {key other : String} (h : other ≠ key) (value : α)
    (entries : List (String × α)) :
    (put key value entries).lookup other = entries.lookup other := by
  induction entries with
  | nil => simp [put, List.lookup_cons, beq_eq_false_iff_ne.2 h]
  | cons entry rest ih =>
    obtain ⟨k, v⟩ := entry
    simp only [put]
    split
    · next hk => subst hk; simp [List.lookup_cons, beq_eq_false_iff_ne.2 h]
    · next hk => simp only [List.lookup_cons, ih]

end Entries

/-- An identified set of fields. -/
structure Record where
  id : String
  fields : List (String × Value)
deriving DecidableEq

namespace Record

/-- The record without fields. -/
def empty (id : String) : Record := ⟨id, []⟩

/-- Sets the value of a field. -/
def set (r : Record) (key : String) (value : Value) : Record :=
  { r with fields := Entries.put key value r.fields }

/-- The value of a field, if it was set. -/
def get? (r : Record) (key : String) : Option Value := r.fields.lookup key

/-- The value of a field, empty if it was never set. -/
def value (r : Record) (key : String) : Value := (r.get? key).getD .empty

/-- How many fields were set. -/
def size (r : Record) : Nat := r.fields.length

@[simp] theorem get?_empty (id key : String) : (empty id).get? key = none := rfl

@[simp] theorem set_id (r : Record) (key : String) (value : Value) :
    (r.set key value).id = r.id := rfl

@[simp] theorem get?_set_self (r : Record) (key : String) (value : Value) :
    (r.set key value).get? key = some value :=
  Entries.lookup_put_self key value r.fields

theorem get?_set_of_ne (r : Record) {key other : String} (h : other ≠ key) (value : Value) :
    (r.set key value).get? other = r.get? other :=
  Entries.lookup_put_of_ne h value r.fields

end Record

end TableView
