import TableView.Binary64.Rounding
import TableView.Json.Basic

/-!
# Decoding JSON trees

The conventions that every decoder of the library follows: how records, options,
names of alternatives and tagged alternatives are spelled in JSON. A decoder
answers `none` for a tree that does not spell a value of its type.

A record is an object, or an array of its fields in order. Fields it does not know
are skipped; a field it does know may occur only once.

Some values have to be held back until a tag that stands after them has been seen,
or because their tag and their fields share one object. Held values must be
readable as a whole, and a few spellings are understood only there (`Access`).
-/

namespace TableView

/-- How a value reaches its decoder: as it is read, or after having been held back. -/
inductive Access where
  | direct
  | held
deriving DecidableEq

namespace Json

/-- Decodes a string. -/
def string? : Json → Option String
  | str s => some s
  | _ => none

/-- Decodes a truth value. -/
def bool? : Json → Option Bool
  | bool b => some b
  | _ => none

/-- Decodes a number; whole numbers are rounded to the nearest one. -/
def number? : Json → Option Binary64
  | int i => some (.ofInt i)
  | float x => some x
  | _ => none

/-- Decodes a whole number between two bounds, both included. -/
def intBetween? (least greatest : Int) : Json → Option Int
  | int i => if least ≤ i ∧ i ≤ greatest then some i else none
  | _ => none

/-- Decodes a signed 64-bit number. -/
def int64? (v : Json) : Option Int64 :=
  (v.intBetween? Int64.minValue.toInt Int64.maxValue.toInt).map Int64.ofInt

/-- Decodes an unsigned 32-bit number. -/
def uint32? (v : Json) : Option UInt32 :=
  (v.intBetween? 0 0xffffffff).map fun i => UInt32.ofNat i.toNat

/-- Decodes a position in a list. Only whole numbers within 64 bits are integers of a tree
that was read from a text, so no other bound is needed. -/
def index? : Json → Option Nat
  | int i => if 0 ≤ i then some i.toNat else none
  | _ => none

@[simp] theorem index?_int (n : Nat) : (int n).index? = some n := by
  simp [index?]

/-- Decodes an array item by item. -/
def list? (decode : Json → Option α) : Json → Option (List α)
  | arr items => items.mapM decode
  | _ => none

/-- Decodes a value that may be null. -/
def nullable? (decode : Json → Option α) : Json → Option (Option α)
  | null => some none
  | v => (decode v).map some

/-- The name of an alternative without fields: a string, or an object with that one name. -/
def name? (access : Access) : Json → Option String
  | str s => some s
  | obj [(s, null)] => some s
  | obj [(s, obj [])] => if access = .held then some s else none
  | _ => none

/-- Decodes an alternative without fields by its name. -/
def choice? (access : Access) (choices : List (String × α)) (v : Json) : Option α :=
  (v.name? access).bind fun name => choices.lookup name

/-- The known fields of a record that a tree spells. -/
structure Fields where
  entries : List (String × Json)
  listed : Bool

/-- The fields of a record spelled as an object or as an array. -/
def fields? (names : List String) : Json → Option Fields
  | obj members =>
    if names.all fun name => members.countP (·.1 == name) ≤ 1 then some ⟨members, false⟩ else none
  | arr items => if items.length ≤ names.length then some ⟨names.zip items, true⟩ else none
  | _ => none

namespace Fields

/-- The value of a field, if it is spelled. -/
def get? (fields : Fields) (name : String) : Option Json := fields.entries.lookup name

@[simp] theorem get?_nil (listed : Bool) (name : String) : get? ⟨[], listed⟩ name = none := rfl

@[simp] theorem get?_cons (key : String) (v : Json) (rest : List (String × Json)) (listed : Bool)
    (name : String) :
    get? ⟨(key, v) :: rest, listed⟩ name =
      if name = key then some v else get? ⟨rest, listed⟩ name := by
  by_cases here : name = key
  · simp [get?, here]
  · have other : (name == key) = false := by simpa using here
    simp [get?, List.lookup_cons, here, other]

/-- Decodes a field that must be present. -/
def required? (fields : Fields) (name : String) (decode : Json → Option α) : Option α :=
  (fields.get? name).bind decode

/-- Decodes a field that has a default. A null does not stand for the default. -/
def withDefault? (fields : Fields) (name : String) (value : α) (decode : Json → Option α) :
    Option α :=
  match fields.get? name with
  | some v => decode v
  | none => some value

/-- Decodes a field that may be null, and may be absent from an object. -/
def optional? (fields : Fields) (name : String) (decode : Json → Option α) : Option (Option α) :=
  match fields.get? name with
  | some v => v.nullable? decode
  | none => if fields.listed then none else some none

end Fields

/-- The name that a tag spells. A held tag may also be the position of its alternative. -/
def tagName? (access : Access) (names : List String) : Json → Option String
  | str s => some s
  | int i => if access = .held ∧ 0 ≤ i then names[i.toNat]? else none
  | _ => none

/-- Splits an alternative whose tag stands among its fields into the name and the rest, which
is held; in an array the tag comes first. -/
def taggedFields? (access : Access) (tag : String) (names : List String) :
    Json → Option (String × Json)
  | obj members =>
    let rest := members.filter (·.1 != tag)
    match members.filter (·.1 == tag) with
    | [(_, v)] =>
      if haveReadable rest then (v.tagName? access names).map fun name => (name, obj rest) else none
    | _ => none
  | arr (v :: rest) =>
    if areReadable rest then (v.tagName? access names).map fun name => (name, arr rest) else none
  | _ => none

/-- An alternative whose content stands beside its tag: the name, the content if there is
one, and how the content was reached. -/
structure Tagged where
  name : String
  content : Option Json
  access : Access

/-- Splits an alternative whose content stands beside its tag. Content that precedes the tag
is held; an array has exactly the two, and its tag can only be spelled as a bare name. -/
def taggedContent? (access : Access) (tag content : String) (names : List String) :
    Json → Option Tagged
  | obj members =>
    let first := members.find? fun m => m.1 == tag || m.1 == content
    match members.filter (·.1 == tag), members.filter (·.1 == content) with
    | [(_, t)], [] => (t.name? access).map fun name => ⟨name, none, access⟩
    | [(_, t)], [(_, c)] =>
      if first.any (·.1 == content) then
        if c.isReadable then (t.name? access).map fun name => ⟨name, some c, .held⟩ else none
      else (t.name? access).map fun name => ⟨name, some c, access⟩
    | _, _ => none
  | arr [t, c] => (t.tagName? access names).map fun name => ⟨name, some c, access⟩
  | _ => none

namespace Tagged

/-- Decodes the content of an alternative that has some. -/
def required? (tagged : Tagged) (decode : Access → Json → Option α) : Option α :=
  tagged.content.bind (decode tagged.access)

/-- Accepts an alternative without content, which may also be spelled null. -/
def bare? (tagged : Tagged) (value : α) : Option α :=
  match tagged.content with
  | none => some value
  | some null => some value
  | some _ => none

end Tagged

/-- The spelling of an optional value: null when there is none. -/
def ofOption (encode : α → Json) : Option α → Json
  | some a => encode a
  | none => null

/-- The spelling of a list. -/
def ofList (encode : α → Json) (as : List α) : Json := arr (as.map encode)

/-- The spelling of a list of texts. -/
def ofStrings (ss : List String) : Json := ofList str ss

/-- A list is read back as soon as each of its items is. -/
theorem list?_ofList {encode : α → Json} {decode : Json → Option α} {as : List α}
    (h : ∀ a ∈ as, decode (encode a) = some a) : (ofList encode as).list? decode = some as := by
  simp only [ofList, list?]
  induction as with
  | nil => rfl
  | cons a rest ih =>
    have tail := ih fun b hb => h b (List.mem_cons_of_mem a hb)
    simp [h a List.mem_cons_self, tail]

@[simp] theorem list?_ofStrings (ss : List String) : (ofStrings ss).list? string? = some ss :=
  list?_ofList fun _ _ => rfl

/-- An optional value is read back as soon as no value is spelled like its absence. -/
theorem nullable?_ofOption {encode : α → Json} {decode : Json → Option α}
    (h : ∀ a, decode (encode a) = some a) (hne : ∀ a, encode a ≠ null) (o : Option α) :
    (ofOption encode o).nullable? decode = some o := by
  cases o with
  | none => rfl
  | some a =>
    have ha := h a
    have hna := hne a
    simp only [ofOption]
    cases hv : encode a <;> simp_all [nullable?]

end Json

end TableView
