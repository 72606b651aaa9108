import TableView.Proofs.Binary64.Whole
import TableView.Proofs.Json.Parts

/-!
# Trees that can be spelled

The numbers of a JSON tree are finite, and its whole numbers lie within 64 bits. So a number
that a decoder takes from such a tree is finite, and whatever part of the tree a decoder
looks at, it is again such a tree.
-/

namespace TableView.Json

mutual

/-- Whether all numbers of a tree are those of JSON: finite, and 64 bits wide if whole. -/
def isExpressible : Json → Bool
  | int i => -0x8000000000000000 ≤ i && i < 0x10000000000000000
  | float x => x.isFinite
  | arr items => areExpressible items
  | obj members => haveExpressible members
  | _ => true

/-- Whether all numbers of some items are those of JSON. -/
def areExpressible : List Json → Bool
  | [] => true
  | v :: rest => v.isExpressible && areExpressible rest

/-- Whether all numbers of some members are those of JSON. -/
def haveExpressible : List (String × Json) → Bool
  | [] => true
  | (_, v) :: rest => v.isExpressible && haveExpressible rest

end

theorem areExpressible_iff {items : List Json} :
    areExpressible items = true ↔ ∀ v ∈ items, v.isExpressible = true := by
  induction items with
  | nil => simp [areExpressible]
  | cons v rest ih => rw [areExpressible, Bool.and_eq_true, ih, List.forall_mem_cons]

theorem haveExpressible_iff {members : List (String × Json)} :
    haveExpressible members = true ↔ ∀ m ∈ members, m.2.isExpressible = true := by
  induction members with
  | nil => simp [haveExpressible]
  | cons m rest ih => rw [haveExpressible, Bool.and_eq_true, ih, List.forall_mem_cons]

@[simp] theorem isExpressible_arr {items : List Json} :
    (arr items).isExpressible = true ↔ ∀ v ∈ items, v.isExpressible = true :=
  areExpressible_iff

@[simp] theorem isExpressible_obj {members : List (String × Json)} :
    (obj members).isExpressible = true ↔ ∀ m ∈ members, m.2.isExpressible = true :=
  haveExpressible_iff

variable {v c : Json} {access : Access} {name tag content : String} {names : List String}

theorem isFinite_of_number? (expressible : v.isExpressible = true) {x : Binary64}
    (read : v.number? = some x) : x.isFinite = true := by
  cases v with
  | int i =>
      obtain rfl : Binary64.ofInt i = x := Option.some.inj read
      simp only [isExpressible, Bool.and_eq_true, decide_eq_true_eq] at expressible
      exact Binary64.isFinite_ofInt (by omega)
  | float y =>
      obtain rfl : y = x := Option.some.inj read
      exact expressible
  | _ => cases read

theorem IsPart.isExpressible (part : c.IsPart v) (expressible : v.isExpressible = true) :
    c.isExpressible = true := by
  cases part with
  | item mem => exact isExpressible_arr.1 expressible c mem
  | member mem => exact isExpressible_obj.1 expressible _ mem

theorem all_isExpressible_of_fields? (expressible : v.isExpressible = true) {fields : Fields}
    (spelled : v.fields? names = some fields) : fields.All (·.isExpressible = true) :=
  (all_isPart_of_fields? spelled).imp fun _ part => part.isExpressible expressible

theorem isExpressible_of_taggedFields? (expressible : v.isExpressible = true) {rest : Json}
    (read : v.taggedFields? access tag names = some (name, rest)) : rest.isExpressible = true := by
  cases v with
  | obj members =>
      rw [taggedFields?] at read
      split at read
      next =>
        simp only [Option.ite_none_right_eq_some, Option.map_eq_some_iff, Prod.mk.injEq] at read
        obtain ⟨-, _, -, -, rfl⟩ := read
        rw [isExpressible_obj] at expressible ⊢
        intro m mem
        exact expressible m ((List.mem_filter.1 mem).1)
      next => cases read
  | arr items =>
      cases items with
      | nil => cases read
      | cons first others =>
          simp only [taggedFields?, Option.ite_none_right_eq_some, Option.map_eq_some_iff,
            Prod.mk.injEq] at read
          obtain ⟨-, _, -, -, rfl⟩ := read
          rw [isExpressible_arr] at expressible ⊢
          intro item mem
          exact expressible item (List.mem_cons_of_mem first mem)
  | _ => cases read

end TableView.Json
