import TableView.Text.CaseTable

/-!
# Lowercasing a text

Texts are compared without regard to case by lowercasing both sides with the full
Unicode mapping. Two characters are not mapped one by one: the dotted capital I
becomes two characters, and a capital sigma that ends a word becomes a final sigma.
-/

namespace TableView.Text

/-- Whether a character has case. -/
def isCased (c : Char) : Bool := CaseTable.contains CaseTable.casedRanges c.toNat

/-- Whether casing looks through a character when it looks for the end of a word. -/
def isCaseIgnorable (c : Char) : Bool := CaseTable.contains CaseTable.ignorableRanges c.toNat

/-- The lowercase of a character outside ASCII, itself when it has none. -/
def lowerBeyondAscii (c : Char) : Char :=
  let run? := CaseTable.lowerRuns.find? fun (first, last, stride, _) =>
    first ≤ c.toNat && c.toNat ≤ last && (c.toNat - first) % stride == 0
  match run? with
  | some (_, _, _, shift) => Char.ofNat (c.toNat + shift).toNat
  | none => c

/-- The lowercase of one character regardless of its neighbours. -/
def lowerChar (c : Char) : List Char :=
  if c.toNat < 0x80 then [c.toLower]
  else if c = 'İ' then ['i', '\u0307']
  else [lowerBeyondAscii c]

/-- Whether the first character that casing does not look through has case. -/
def startsCased (cs : List Char) : Bool :=
  match cs.dropWhile isCaseIgnorable with
  | [] => false
  | c :: _ => isCased c

/-- Lowercases the rest of a text, given the characters before it, nearest first. A capital
sigma ends a word when a cased character stands before it and none after it. -/
def lowerFrom (before : List Char) : List Char → List Char
  | [] => []
  | c :: rest =>
    let lowered :=
      if c = 'Σ' then [if startsCased before && !startsCased rest then 'ς' else 'σ']
      else lowerChar c
    lowered ++ lowerFrom (c :: before) rest

/-- The full lowercase of a text. -/
def lowercase (s : String) : String := String.ofList (lowerFrom [] s.toList)

end TableView.Text
