import TableView.Binary64.Basic

/-!
# JSON trees

The tree of a JSON text. Members of an object keep their order and may repeat.
Whole numbers within 64 bits are kept apart from all other numbers, because some
fields accept nothing else.

Some well-formed texts have no usable value: a number beyond the finite ones, a
string with half a surrogate pair, a container nested too deeply. They become
`unreadable`, which a reader may skip but never use.
-/

namespace TableView

/-- A JSON value as read from a text. -/
inductive Json where
  | null
  | bool (b : Bool)
  | int (i : Int)
  | float (x : Binary64)
  | str (s : String)
  | arr (items : List Json)
  | obj (members : List (String × Json))
  | unreadable

namespace Json

instance : Inhabited Json := ⟨null⟩

/-- Induction over a tree. What is shown of a container may assume it of all that is in it. -/
@[elab_as_elim, induction_eliminator]
theorem induction {motive : Json → Prop} (null : motive null) (bool : ∀ b, motive (bool b))
    (int : ∀ i, motive (int i)) (float : ∀ x, motive (float x)) (str : ∀ s, motive (str s))
    (arr : ∀ items, (∀ v ∈ items, motive v) → motive (arr items))
    (obj : ∀ members, (∀ m ∈ members, motive m.2) → motive (obj members))
    (unreadable : motive unreadable) (v : Json) : motive v :=
  @Json.rec motive (fun items => ∀ v ∈ items, motive v)
    (fun members => ∀ m ∈ members, motive m.2) (fun m => motive m.2)
    null bool int float str arr obj unreadable
    (fun _ member => absurd member List.not_mem_nil)
    (fun _ _ here there => List.forall_mem_cons.2 ⟨here, there⟩)
    (fun _ member => absurd member List.not_mem_nil)
    (fun _ _ here there => List.forall_mem_cons.2 ⟨here, there⟩)
    (fun _ _ value => value) v

mutual

/-- Whether the whole tree has a value. -/
def isReadable : Json → Bool
  | unreadable => false
  | arr items => areReadable items
  | obj members => haveReadable members
  | _ => true

/-- Whether every item has a value. -/
def areReadable : List Json → Bool
  | [] => true
  | v :: rest => v.isReadable && areReadable rest

/-- Whether every member has a value. -/
def haveReadable : List (String × Json) → Bool
  | [] => true
  | (_, v) :: rest => v.isReadable && haveReadable rest

end

@[simp] theorem areReadable_eq (items : List Json) : areReadable items = items.all isReadable := by
  induction items with
  | nil => rfl
  | cons v rest ih => simp [areReadable, ih]

@[simp] theorem haveReadable_eq (members : List (String × Json)) :
    haveReadable members = members.all (·.2.isReadable) := by
  induction members with
  | nil => rfl
  | cons m rest ih => simp [haveReadable, ih]

/-- How many containers are open at the deepest point that still has a value. -/
def nestingLimit : Nat := 127

end Json

end TableView
