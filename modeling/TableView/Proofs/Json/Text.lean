import TableView.Json.Token
import TableView.Json.Writer

/-!
# Strings read back

Every character of a string is written as itself, as an escape with one letter or as
an escape with its number (`charText_cases`), and each of the three is read back as
the character it was written for. Numbers are only written for control characters, so
no half of a surrogate pair is ever among them and no two of them can be joined.

The scanner walks through a written string without finding its end: a quote only
stands there after a backslash, and no control character stands there at all.
-/

namespace TableView.Json

/-- How a character stands in a string. -/
theorem charText_cases (c : Char) :
    (∃ letter, letter ∈ ['"', '\\', 'b', 'f', 'n', 'r', 't'] ∧ escaped? letter = some c ∧
        charText c = ['\\', letter]) ∨
      (c.toNat < 0x20 ∧ charText c =
        ['\\', 'u', '0', '0', Nat.digitChar (c.toNat / 16), Nat.digitChar (c.toNat % 16)]) ∨
      (c ≠ '"' ∧ c ≠ '\\' ∧ 0x20 ≤ c.toNat ∧ charText c = [c]) := by
  by_cases quote : c = '"'
  · subst quote
    exact .inl ⟨'"', by simp, rfl, rfl⟩
  by_cases backslash : c = '\\'
  · subst backslash
    exact .inl ⟨'\\', by simp, rfl, rfl⟩
  by_cases backspace : c = '\x08'
  · subst backspace
    exact .inl ⟨'b', by simp, rfl, rfl⟩
  by_cases formFeed : c = '\x0c'
  · subst formFeed
    exact .inl ⟨'f', by simp, rfl, rfl⟩
  by_cases newline : c = '\n'
  · subst newline
    exact .inl ⟨'n', by simp, rfl, rfl⟩
  by_cases carriageReturn : c = '\r'
  · subst carriageReturn
    exact .inl ⟨'r', by simp, rfl, rfl⟩
  by_cases tab : c = '\t'
  · subst tab
    exact .inl ⟨'t', by simp, rfl, rfl⟩
  simp only [charText, if_neg quote, if_neg backslash, if_neg backspace, if_neg formFeed,
    if_neg newline, if_neg carriageReturn, if_neg tab]
  by_cases control : c.toNat < 0x20
  · exact .inr (.inl ⟨control, if_pos control⟩)
  · exact .inr (.inr ⟨quote, backslash, by omega, if_neg control⟩)

/-- Whether a part of a string stands for a character. Its number does only below the
surrogates. -/
def Piece.Spells (c : Char) : Piece → Prop
  | char d => d = c
  | unit n => n = c.toNat ∧ n < 0x20

theorem hexDigit?_digitChar : ∀ n < 16, hexDigit? (Nat.digitChar n) = some n := by
  decide

theorem pieces?_charText (c : Char) :
    ∃ piece : Piece, piece.Spells c ∧
      ∀ rest, pieces? (charText c ++ rest) = (pieces? rest).map (piece :: ·) := by
  obtain ⟨letter, member, undone, text⟩ | ⟨control, text⟩ | ⟨_, backslash, _, text⟩ :=
    charText_cases c
  · refine ⟨.char c, rfl, ?_⟩
    intro rest
    have ordinary : letter ≠ 'u' := by
      rintro rfl
      exact absurd member (by decide)
    rw [text, List.cons_append, List.singleton_append, pieces?, undone]
    · cases pieces? rest <;> rfl
    · simp [ordinary]
  · refine ⟨.unit c.toNat, ⟨rfl, control⟩, ?_⟩
    intro rest
    have high := hexDigit?_digitChar (c.toNat / 16) (by omega)
    have low := hexDigit?_digitChar (c.toNat % 16) (by omega)
    have number : ((0 * 16 + 0) * 16 + c.toNat / 16) * 16 + c.toNat % 16 = c.toNat := by omega
    have zero : hexDigit? '0' = some 0 := by decide
    rw [text]
    simp only [List.cons_append, List.nil_append, pieces?, high, low, zero, Option.bind_eq_bind,
      Option.bind_some, number]
    cases pieces? rest <;> rfl
  · refine ⟨.char c, rfl, ?_⟩
    intro rest
    rw [text, List.singleton_append, pieces?]
    · cases pieces? rest <;> rfl
    · simp [backslash]
    · simp [backslash]

theorem assemble?_cons {piece : Piece} {c : Char} (spells : piece.Spells c) (rest : List Piece) :
    assemble? (piece :: rest) = (assemble? rest).map (c :: ·) := by
  cases piece with
  | char d =>
      obtain rfl : d = c := spells
      rw [assemble?]
  | unit n =>
      obtain ⟨rfl, control⟩ := spells
      have high : isHighSurrogate c.toNat = false := by
        simp [isHighSurrogate]
        omega
      have low : isLowSurrogate c.toNat = false := by
        simp [isLowSurrogate]
        omega
      cases rest with
      | nil => simp [assemble?, high, low]
      | cons next more => cases next <;> simp [assemble?, high, low]

/-- The characters between the quotes are undone to the string. -/
theorem textToken?_flatMap_charText (s : String) :
    textToken? (s.toList.flatMap charText) = some (.text (some s)) := by
  have undone : ∀ cs : List Char, ∃ pieces, pieces? (cs.flatMap charText) = some pieces ∧
      assemble? pieces = some cs := by
    intro cs
    induction cs with
    | nil => exact ⟨[], rfl, by rw [assemble?]⟩
    | cons c rest ih =>
        obtain ⟨pieces, split, joined⟩ := ih
        obtain ⟨piece, spells, first⟩ := pieces?_charText c
        refine ⟨piece :: pieces, ?_, ?_⟩
        · rw [List.flatMap_cons, first, split, Option.map_some]
        · rw [assemble?_cons spells, joined, Option.map_some]
  obtain ⟨pieces, split, joined⟩ := undone s.toList
  simp only [textToken?, split, Option.map_some, joined, String.ofList_toList]

end TableView.Json
