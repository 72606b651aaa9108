/-!
# Blank characters

The white space of the Unicode standard. Readers that allow spacing between parts
skip exactly these characters.
-/

namespace TableView.Text

/-- Whether a character is white space. -/
def isBlank (c : Char) : Bool :=
  (0x9 ≤ c.toNat && c.toNat ≤ 0xd) || c.toNat == 0x20 || c.toNat == 0x85 || c.toNat == 0xa0 ||
  c.toNat == 0x1680 || (0x2000 ≤ c.toNat && c.toNat ≤ 0x200a) || c.toNat == 0x2028 ||
  c.toNat == 0x2029 || c.toNat == 0x202f || c.toNat == 0x205f || c.toNat == 0x3000

/-- The characters after any leading white space. -/
def skipBlank (cs : List Char) : List Char := cs.dropWhile isBlank

end TableView.Text
