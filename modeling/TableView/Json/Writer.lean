import TableView.Decimal.Notation
import TableView.Json.Basic

/-!
# Writing a JSON text

Two layouts of one tree: `compact` without any space, and `pretty` with one member
or item per line, indented by two spaces. Strings escape only what they must, and
numbers that JSON cannot express are written as `null`.
-/

namespace TableView.Json

/-- JSON numbers: the nearer even digit on ties, a point that is always there, and an
exponent outside `0.00001` to `10 ^ 16`. -/
def numberFormat : NumberFormat := ⟨.toEven, some (-4, 16), true⟩

/-- The text of a number that is no whole number. -/
def floatText (x : Binary64) : List Char :=
  if x.isFinite then numberFormat.write x else ['n', 'u', 'l', 'l']

/-- The text of a whole number. -/
def intText (i : Int) : List Char :=
  if i < 0 then '-' :: Nat.toDigits 10 i.natAbs else Nat.toDigits 10 i.natAbs

/-- A character inside a string. Quotes, backslashes and control characters are escaped. -/
def charText (c : Char) : List Char :=
  if c = '"' then ['\\', '"']
  else if c = '\\' then ['\\', '\\']
  else if c = '\x08' then ['\\', 'b']
  else if c = '\x0c' then ['\\', 'f']
  else if c = '\n' then ['\\', 'n']
  else if c = '\r' then ['\\', 'r']
  else if c = '\t' then ['\\', 't']
  else if c.toNat < 0x20 then
    ['\\', 'u', '0', '0', Nat.digitChar (c.toNat / 16), Nat.digitChar (c.toNat % 16)]
  else [c]

/-- A string with its quotes. -/
def stringText (s : String) : List Char := '"' :: (s.toList.flatMap charText ++ ['"'])

/-- The text of a value that is no container. -/
def leafText : Json → List Char
  | bool true => ['t', 'r', 'u', 'e']
  | bool false => ['f', 'a', 'l', 's', 'e']
  | int i => intText i
  | float x => floatText x
  | str s => stringText s
  | _ => ['n', 'u', 'l', 'l']

mutual

/-- The text without spaces. -/
def compactText : Json → List Char
  | arr items => '[' :: (compactItems items ++ [']'])
  | obj members => '{' :: (compactMembers members ++ ['}'])
  | v => leafText v

/-- Items separated by commas. -/
def compactItems : List Json → List Char
  | [] => []
  | [v] => compactText v
  | v :: rest => compactText v ++ ',' :: compactItems rest

/-- Members separated by commas. -/
def compactMembers : List (String × Json) → List Char
  | [] => []
  | [(k, v)] => stringText k ++ ':' :: compactText v
  | (k, v) :: rest => stringText k ++ ':' :: (compactText v ++ ',' :: compactMembers rest)

end

/-- A new line and its indentation. -/
def newLine (depth : Nat) : List Char := '\n' :: List.replicate (2 * depth) ' '

mutual

/-- The indented text at a depth. Empty containers stay on one line. -/
def prettyText (depth : Nat) : Json → List Char
  | arr [] => ['[', ']']
  | arr items => '[' :: (prettyItems (depth + 1) items ++ newLine depth ++ [']'])
  | obj [] => ['{', '}']
  | obj members => '{' :: (prettyMembers (depth + 1) members ++ newLine depth ++ ['}'])
  | v => leafText v

/-- Items, each on a line of its own. -/
def prettyItems (depth : Nat) : List Json → List Char
  | [] => []
  | [v] => newLine depth ++ prettyText depth v
  | v :: rest => newLine depth ++ prettyText depth v ++ ',' :: prettyItems depth rest

/-- Members, each on a line of its own. -/
def prettyMembers (depth : Nat) : List (String × Json) → List Char
  | [] => []
  | [(k, v)] => newLine depth ++ stringText k ++ ':' :: ' ' :: prettyText depth v
  | (k, v) :: rest =>
    newLine depth ++ stringText k ++
      ':' :: ' ' :: (prettyText depth v ++ ',' :: prettyMembers depth rest)

end

/-- The text on one line. -/
def compact (v : Json) : String := String.ofList (compactText v)

/-- The text with one member or item per line. -/
def pretty (v : Json) : String := String.ofList (prettyText 0 v)

end TableView.Json
