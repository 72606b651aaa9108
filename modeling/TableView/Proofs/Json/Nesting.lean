import TableView.Proofs.Json.Parts
import TableView.Proofs.Json.RoundTrip

/-!
# How deeply a tree is nested

A tree is readable after it was written only if it is not nested too deeply
(`depth_le_of_isReadable`). If it is not, what is read back does not depend on the
limit any more, and only numbers can have changed (`reread_eq_settled`).
-/

namespace TableView.Json

mutual

/-- How many containers are open at the deepest point of a tree. -/
def depth : Json → Nat
  | arr items => itemsDepth items + 1
  | obj members => membersDepth members + 1
  | _ => 0

/-- How many containers are open at the deepest point of some items. -/
def itemsDepth : List Json → Nat
  | [] => 0
  | v :: rest => max v.depth (itemsDepth rest)

/-- How many containers are open at the deepest point of some members. -/
def membersDepth : List (String × Json) → Nat
  | [] => 0
  | (_, v) :: rest => max v.depth (membersDepth rest)

end

mutual

/-- What is read back of a tree if there is no limit to its nesting. -/
def settled [NumberReader] : Json → Json
  | arr items => arr (settledItems items)
  | obj members => obj (settledMembers members)
  | v => v.rereadLeaf

/-- What is read back of the items of an array. -/
def settledItems [NumberReader] : List Json → List Json
  | [] => []
  | v :: rest => v.settled :: settledItems rest

/-- What is read back of the members of an object. -/
def settledMembers [NumberReader] : List (String × Json) → List (String × Json)
  | [] => []
  | (k, v) :: rest => (k, v.settled) :: settledMembers rest

end

@[simp] theorem settledItems_eq [NumberReader] (items : List Json) :
    settledItems items = items.map settled := by
  induction items with
  | nil => rfl
  | cons v rest ih => rw [settledItems, ih, List.map_cons]

@[simp] theorem settledMembers_eq [NumberReader] (members : List (String × Json)) :
    settledMembers members = members.map fun m => (m.1, m.2.settled) := by
  induction members with
  | nil => rfl
  | cons m rest ih => rw [settledMembers, ih, List.map_cons]

@[simp] theorem settled_str [NumberReader] (s : String) : (str s).settled = str s := rfl

@[simp] theorem settled_bool [NumberReader] (b : Bool) : (bool b).settled = bool b := rfl

@[simp] theorem settled_arr [NumberReader] (items : List Json) :
    (arr items).settled = arr (items.map settled) := by
  rw [settled, settledItems_eq]

@[simp] theorem settled_obj [NumberReader] (members : List (String × Json)) :
    (obj members).settled = obj (members.map fun m => (m.1, m.2.settled)) := by
  rw [settled, settledMembers_eq]

@[simp] theorem depth_str (s : String) : (str s).depth = 0 := rfl

variable {room : Nat}

theorem itemsDepth_le_iff (items : List Json) :
    itemsDepth items ≤ room ↔ ∀ v ∈ items, v.depth ≤ room := by
  induction items with
  | nil => simp [itemsDepth]
  | cons v rest ih => rw [itemsDepth, Nat.max_le, ih, List.forall_mem_cons]

theorem membersDepth_le_iff (members : List (String × Json)) :
    membersDepth members ≤ room ↔ ∀ m ∈ members, m.2.depth ≤ room := by
  induction members with
  | nil => simp [membersDepth]
  | cons m rest ih => rw [membersDepth, Nat.max_le, ih, List.forall_mem_cons]

theorem depth_arr_le_iff (items : List Json) :
    (arr items).depth ≤ room + 1 ↔ ∀ v ∈ items, v.depth ≤ room := by
  rw [depth, Nat.add_le_add_iff_right, itemsDepth_le_iff]

theorem depth_obj_le_iff (members : List (String × Json)) :
    (obj members).depth ≤ room + 1 ↔ ∀ m ∈ members, m.2.depth ≤ room := by
  rw [depth, Nat.add_le_add_iff_right, membersDepth_le_iff]

theorem IsPart.depth_lt {v c : Json} (part : c.IsPart v) : c.depth < v.depth := by
  cases part with
  | item mem => exact Nat.lt_succ_of_le ((itemsDepth_le_iff _).1 (Nat.le_refl _) c mem)
  | member mem => exact Nat.lt_succ_of_le ((membersDepth_le_iff _).1 (Nat.le_refl _) _ mem)

@[simp] theorem reread_arr_succ [NumberReader] (items : List Json) :
    (arr items).reread (room + 1) = arr (items.map (reread room)) := by
  rw [reread, if_neg (Nat.succ_ne_zero room), rereadItems_eq, Nat.add_sub_cancel]

@[simp] theorem reread_obj_succ [NumberReader] (members : List (String × Json)) :
    (obj members).reread (room + 1) = obj (members.map fun m => (m.1, m.2.reread room)) := by
  rw [reread, if_neg (Nat.succ_ne_zero room), rereadMembers_eq, Nat.add_sub_cancel]

@[simp] theorem reread_str [NumberReader] (s : String) : (str s).reread room = str s := rfl

@[simp] theorem reread_bool [NumberReader] (b : Bool) : (bool b).reread room = bool b := rfl

theorem reread_int [NumberReader] {i : Int} (least : -0x8000000000000000 ≤ i)
    (greatest : i < 0x10000000000000000) : (int i).reread room = int i :=
  ofWhole_natAbs least greatest

theorem reread_ofList [NumberReader] {encode : α → Json} {as : List α}
    (kept : ∀ a ∈ as, (encode a).reread room = encode a) :
    (ofList encode as).reread (room + 1) = ofList encode as := by
  rw [ofList, reread_arr_succ, List.map_map]
  exact congrArg arr (List.map_congr_left kept)

/-- A tree that is not nested too deeply is read back as if there was no limit. -/
theorem reread_eq_settled [NumberReader] {v : Json} (fits : v.depth ≤ room) :
    v.reread room = v.settled := by
  induction v generalizing room with
  | arr items ih =>
      obtain ⟨inner, rfl⟩ : ∃ inner, room = inner + 1 := ⟨room - 1, by rw [depth] at fits; omega⟩
      have inside := (depth_arr_le_iff items).1 fits
      rw [reread_arr_succ, settled_arr]
      refine congrArg arr (List.map_congr_left ?_)
      intro v member
      exact ih v member (inside v member)
  | obj members ih =>
      obtain ⟨inner, rfl⟩ : ∃ inner, room = inner + 1 := ⟨room - 1, by rw [depth] at fits; omega⟩
      have inside := (depth_obj_le_iff members).1 fits
      rw [reread_obj_succ, settled_obj]
      refine congrArg obj (List.map_congr_left ?_)
      intro m member
      rw [ih m member (inside m member)]
  | null | bool | int | float | str | unreadable => rfl

/-- What is readable after it was written was not nested too deeply. -/
theorem depth_le_of_isReadable [NumberReader] {v : Json} (readable : (v.reread room).isReadable) :
    v.depth ≤ room := by
  induction v generalizing room with
  | arr items ih =>
      cases room with
      | zero => cases readable
      | succ inner =>
          rw [reread_arr_succ, isReadable, areReadable_eq, List.all_map, List.all_eq_true]
            at readable
          rw [depth_arr_le_iff]
          intro v member
          exact ih v member (readable v member)
  | obj members ih =>
      cases room with
      | zero => cases readable
      | succ inner =>
          rw [reread_obj_succ, isReadable, haveReadable_eq, List.all_map, List.all_eq_true]
            at readable
          rw [depth_obj_le_iff]
          intro m member
          exact ih m member (readable m member)
  | null | bool | int | float | str | unreadable => exact Nat.zero_le room

end TableView.Json
