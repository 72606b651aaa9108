import TableView.Decimal.Basic
import TableView.Json.Basic

/-!
# Tokens of a JSON text

`Token.scan?` splits a text into punctuation, strings and words. A word is a
maximal run of the characters that numbers and literals are made of; two of them
can never stand side by side in a well-formed text, so taking the longest run
decides nothing.

What a number stands for that is no whole number within 64 bits is left to a
`NumberReader`, since readers differ in how they round. Unless another one is given, it
is the nearest number.

Strings are scanned to their closing quote first. Their escapes are undone in two
passes: `pieces?` checks the spelling of each escape, and `assemble?` joins
surrogate pairs. Only the first kind of fault makes the text malformed.
-/

namespace TableView.Json

/-- A token. A string that has no value is kept as `none`. -/
inductive Token where
  | openArray
  | closeArray
  | openObject
  | closeObject
  | comma
  | colon
  | text (s : Option String)
  | atom (v : Json)

/-- How a decimal is read as a number of the given sign. There is no number beyond the finite
ones. -/
class NumberReader where
  read? : Bool → Decimal → Option Binary64
  isFinite_of_read? : ∀ {negative d x}, read? negative d = some x → x.isFinite

/-- Reads a decimal as the number nearest to it. -/
instance NumberReader.nearest : NumberReader where
  read? negative d :=
    let x := d.toBinary64 negative
    if x.isFinite then some x else none
  isFinite_of_read? read := by
    obtain ⟨finite, same⟩ := Option.ite_none_right_eq_some.1 read
    exact Option.some.inj same ▸ finite

/-- The value of a number that is no whole number within 64 bits. -/
def ofDecimal [NumberReader] (negative : Bool) (d : Decimal) : Json :=
  match NumberReader.read? negative d with
  | some x => float x
  | none => unreadable

/-- The value of a number without fraction and exponent. Negative zero is no integer. -/
def ofWhole [NumberReader] (negative : Bool) (n : Nat) : Json :=
  if !negative && n < 0x10000000000000000 then int n
  else if negative && 0 < n && n ≤ 0x8000000000000000 then int (-n)
  else ofDecimal negative ⟨n, 0⟩

/-- The decimal with the given digits before and after its point, and a power of ten. -/
def pointed (whole places : List Char) (exponent : Int) : Decimal :=
  ⟨Nat.ofDigitChars 10 (whole ++ places) 0, exponent - places.length⟩

/-- An optional fraction: its digits and what follows. -/
def fraction? : List Char → Option (List Char × List Char)
  | '.' :: rest =>
    let (digits, rest) := rest.span Char.isDigit
    if digits.isEmpty then none else some (digits, rest)
  | rest => some ([], rest)

/-- A whole exponent part, which must end the number. -/
def exponent? : List Char → Option Int
  | [] => none
  | e :: rest =>
    let (negative, digits) := match rest with
      | '-' :: ds => (true, ds)
      | '+' :: ds => (false, ds)
      | ds => (false, ds)
    if (e = 'e' || e = 'E') && !digits.isEmpty && digits.all Char.isDigit then
      let n := Nat.ofDigitChars 10 digits 0
      some (if negative then -(n : Int) else n)
    else none

/-- The value of a number without its sign. -/
def ofUnsigned? [NumberReader] (negative : Bool) (word : List Char) : Option Json :=
  let (whole, rest) := word.span Char.isDigit
  if whole.isEmpty || (whole.head? == some '0' && whole.length != 1) then none
  else
    match rest, fraction? rest with
    | [], _ => some (ofWhole negative (Nat.ofDigitChars 10 whole 0))
    | _, none => none
    | _, some (places, []) => some (ofDecimal negative (pointed whole places 0))
    | _, some (places, tail) =>
      (exponent? tail).map fun e => ofDecimal negative (pointed whole places e)

/-- The value of a literal or a number. -/
def ofWord? [NumberReader] (word : List Char) : Option Json :=
  if word = ['n', 'u', 'l', 'l'] then some null
  else if word = ['t', 'r', 'u', 'e'] then some (bool true)
  else if word = ['f', 'a', 'l', 's', 'e'] then some (bool false)
  else match word with
    | '-' :: rest => ofUnsigned? true rest
    | _ => ofUnsigned? false word

/-- A part of a string: a character, or the number of a `\u` escape. -/
inductive Piece where
  | char (c : Char)
  | unit (n : Nat)

/-- The value of a hexadecimal digit in either case. -/
def hexDigit? (c : Char) : Option Nat :=
  if '0' ≤ c ∧ c ≤ '9' then some (c.toNat - '0'.toNat)
  else if 'a' ≤ c ∧ c ≤ 'f' then some (c.toNat - 'a'.toNat + 10)
  else if 'A' ≤ c ∧ c ≤ 'F' then some (c.toNat - 'A'.toNat + 10)
  else none

/-- The character that a one-letter escape stands for. -/
def escaped? : Char → Option Char
  | '"' => some '"'
  | '\\' => some '\\'
  | '/' => some '/'
  | 'b' => some '\x08'
  | 'f' => some '\x0c'
  | 'n' => some '\n'
  | 'r' => some '\r'
  | 't' => some '\t'
  | _ => none

/-- Undoes the escapes of a string; none when one is misspelled. -/
def pieces? : List Char → Option (List Piece)
  | [] => some []
  | '\\' :: 'u' :: a :: b :: c :: d :: rest => do
    let a ← hexDigit? a
    let b ← hexDigit? b
    let c ← hexDigit? c
    let d ← hexDigit? d
    let more ← pieces? rest
    some (.unit (((a * 16 + b) * 16 + c) * 16 + d) :: more)
  | '\\' :: c :: rest => do
    let c ← escaped? c
    let more ← pieces? rest
    some (.char c :: more)
  | c :: rest => do
    let more ← pieces? rest
    some (.char c :: more)

/-- Whether an escaped number is the first half of a surrogate pair. -/
def isHighSurrogate (n : Nat) : Bool := 0xd800 ≤ n && n < 0xdc00

/-- Whether an escaped number is the second half of a surrogate pair. -/
def isLowSurrogate (n : Nat) : Bool := 0xdc00 ≤ n && n < 0xe000

/-- Joins surrogate pairs; none when half a pair stands alone. -/
def assemble? : List Piece → Option (List Char)
  | [] => some []
  | .char c :: rest => (assemble? rest).map (c :: ·)
  | .unit high :: tail@(.unit low :: rest) =>
    if isHighSurrogate high && isLowSurrogate low then
      (assemble? rest).map (Char.ofNat (0x10000 + (high - 0xd800) * 0x400 + (low - 0xdc00)) :: ·)
    else if isHighSurrogate high || isLowSurrogate high then none
    else (assemble? tail).map (Char.ofNat high :: ·)
  | .unit n :: rest =>
    if isHighSurrogate n || isLowSurrogate n then none
    else (assemble? rest).map (Char.ofNat n :: ·)

/-- The token of the characters between two quotes. -/
def textToken? (raw : List Char) : Option Token :=
  (pieces? raw).map fun pieces => .text ((assemble? pieces).map String.ofList)

/-- Where the scanner stands: between tokens, in a word, or in a string, right after a
backslash or not. Characters collected so far come latest first. -/
inductive ScanMode where
  | between
  | word (collected : List Char)
  | quoted (collected : List Char) (afterBackslash : Bool)

/-- The characters that separate tokens. -/
def isSpace (c : Char) : Bool := c = ' ' || c = '\n' || c = '\t' || c = '\r'

/-- The characters of numbers and literals. -/
def isWordChar (c : Char) : Bool := c.isAlphanum || c = '-' || c = '+' || c = '.'

/-- The token of a punctuation character. -/
def punctuation? : Char → Option Token
  | '[' => some .openArray
  | ']' => some .closeArray
  | '{' => some .openObject
  | '}' => some .closeObject
  | ',' => some .comma
  | ':' => some .colon
  | _ => none

/-- Reads one character between tokens: the next mode and the token it completes. -/
def scanBetween (c : Char) : Option (ScanMode × List Token) :=
  if isSpace c then some (.between, [])
  else if c = '"' then some (.quoted [] false, [])
  else if isWordChar c then some (.word [c], [])
  else (punctuation? c).map fun t => (.between, [t])

/-- Reads one character: the next mode and the tokens it completes, at most two. A raw
control character is allowed between tokens only. -/
def scanStep [NumberReader] : ScanMode → Char → Option (ScanMode × List Token)
  | .between, c => scanBetween c
  | .word collected, c =>
    if isWordChar c then some (.word (c :: collected), [])
    else do
      let v ← ofWord? collected.reverse
      let (mode, tokens) ← scanBetween c
      some (mode, .atom v :: tokens)
  | .quoted collected afterBackslash, c =>
    if c.toNat < 0x20 then none
    else if afterBackslash then some (.quoted (c :: collected) false, [])
    else if c = '"' then (textToken? collected.reverse).map fun t => (.between, [t])
    else some (.quoted (c :: collected) (c = '\\'), [])

/-- What is left to complete when the text ends. -/
def scanEnd [NumberReader] : ScanMode → Option (List Token)
  | .between => some []
  | .word collected => (ofWord? collected.reverse).map fun v => [.atom v]
  | .quoted _ _ => none

/-- Scans from a mode, with the tokens found so far, latest first. -/
def scanFrom [NumberReader] : ScanMode × List Token → List Char → Option (List Token)
  | (mode, found), [] => (scanEnd mode).map fun last => (last.reverse ++ found).reverse
  | (mode, found), c :: rest =>
    match scanStep mode c with
    | none => none
    | some (next, tokens) => scanFrom (next, tokens.reverse ++ found) rest

/-- The tokens of a text, or none when it has no tokens. -/
def scan? [NumberReader] (text : List Char) : Option (List Token) := scanFrom (.between, []) text

end TableView.Json
