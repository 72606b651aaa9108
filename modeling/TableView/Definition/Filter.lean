import TableView.Definition.Condition
import TableView.Filter

/-!
# Filters in JSON

A clause is an object with its key among the members of its condition; a group is
an object with its combinator and its children. Nothing tells the two apart but
their members: what reads as a clause is one, and only then a group is tried.
-/

namespace TableView

namespace Clause

/-- Spells a clause. -/
def toJson (c : Clause) : Json := .obj (("columnKey", .str c.columnKey) :: c.condition.members)

/-- Reads the members of a clause. Those of the condition are held. -/
def ofMembers? (members : List (String × Json)) : Option Clause := do
  let key ← match members.filter (·.1 == "columnKey") with
    | [(_, v)] => v.string?
    | _ => none
  let rest := members.filter (·.1 != "columnKey")
  if Json.haveReadable rest then
    let condition ← Condition.ofJson? .held (.obj rest)
    some ⟨key, condition⟩
  else none

/-- Reads a clause. -/
def ofJson? : Json → Option Clause
  | .obj members => ofMembers? members
  | _ => none

end Clause

namespace Combinator

/-- The name of a combinator. -/
def name : Combinator → String
  | all => "and"
  | any => "or"

/-- Reads the combinator among the members of a group. -/
def ofMembers? (members : List (String × Json)) : Option Combinator :=
  match members.filter (·.1 == "combinator") with
  | [(_, v)] => v.choice? .direct [("and", all), ("or", any)]
  | _ => none

end Combinator

namespace Filter

mutual

/-- Spells a filter. -/
def toJson : Filter → Json
  | clause c => c.toJson
  | group combinator children =>
    .obj [("combinator", .str combinator.name), ("children", .arr (toJsonAll children))]

/-- Spells a list of filters. -/
def toJsonAll : List Filter → List Json
  | [] => []
  | f :: rest => toJson f :: toJsonAll rest

end

mutual

/-- Reads a filter whose tree is readable. -/
def ofReadable? : Json → Option Filter
  | .obj members =>
    match Clause.ofMembers? members with
    | some c => some (clause c)
    | none =>
      match Combinator.ofMembers? members, childrenOf? members with
      | some combinator, some children => some (group combinator children)
      | _, _ => none
  | _ => none

/-- Reads the children among the members of a group, which has them once. -/
def childrenOf? : List (String × Json) → Option (List Filter)
  | [] => none
  | (key, v) :: rest =>
    if key = "children" then
      if rest.any (·.1 == "children") then none else listOf? v
    else childrenOf? rest

/-- Reads an array of filters. -/
def listOf? : Json → Option (List Filter)
  | .arr items => ofReadableAll? items
  | _ => none

/-- Reads filters one by one. -/
def ofReadableAll? : List Json → Option (List Filter)
  | [] => some []
  | v :: rest =>
    match ofReadable? v, ofReadableAll? rest with
    | some f, some fs => some (f :: fs)
    | _, _ => none

end

/-- Reads a filter. Its whole tree is held until it is clear what it is. -/
def ofJson? (v : Json) : Option Filter := if v.isReadable then ofReadable? v else none

@[simp] theorem toJsonAll_eq (fs : List Filter) : toJsonAll fs = fs.map toJson := by
  induction fs with
  | nil => rfl
  | cons f rest ih => simp [toJsonAll, ih]

end Filter

end TableView
