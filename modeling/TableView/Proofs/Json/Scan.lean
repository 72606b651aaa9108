import TableView.Proofs.Json.Text

/-!
# Scanning piece by piece

A written text is scanned by scanning the pieces it was put together from. Spaces,
punctuation and strings end where they end (`Splits`), so anything may follow them; a
word goes on as long as it can, so that what follows it must not look like more of it
(`Scans`). Pieces are put together by `Splits.append` and `Scans.append`.
-/

namespace TableView.Json

/-- Whether a text cannot go on with a word that stands before it. -/
def EndsWord (text : List Char) : Prop := ∀ c ∈ text.head?, isWordChar c = false

variable {first second : List Char}

theorem endsWord_nil : EndsWord [] := by
  intro c here
  cases here

theorem endsWord_cons {c : Char} (other : isWordChar c = false) (rest : List Char) :
    EndsWord (c :: rest) := by
  intro d here
  cases here
  exact other

theorem EndsWord.append (left : EndsWord first) (right : EndsWord second) :
    EndsWord (first ++ second) := by
  cases first with
  | nil => exact right
  | cons c rest => exact left

theorem digitChar_printable : ∀ n < 16, 0x20 ≤ (Nat.digitChar n).toNat ∧
    Nat.digitChar n ≠ '"' ∧ Nat.digitChar n ≠ '\\' := by
  decide

variable [NumberReader] {ts us : List Token}

/-- Whether a text is scanned as some tokens, whatever follows it. -/
def Splits (text : List Char) (tokens : List Token) : Prop :=
  ∀ found rest, scanFrom (.between, found) (text ++ rest) =
    scanFrom (.between, tokens.reverse ++ found) rest

/-- Whether a text is scanned as some tokens before everything that ends a word. -/
def Scans (text : List Char) (tokens : List Token) : Prop :=
  ∀ found rest, EndsWord rest → scanFrom (.between, found) (text ++ rest) =
    scanFrom (.between, tokens.reverse ++ found) rest

theorem Splits.scans (split : Splits first ts) : Scans first ts :=
  fun found rest _ => split found rest

theorem Splits.append (left : Splits first ts) (right : Splits second us) :
    Splits (first ++ second) (ts ++ us) := by
  intro found rest
  rw [List.append_assoc, left, right, List.reverse_append, List.append_assoc]

theorem Splits.append_scans (left : Splits first ts) (right : Scans second us) :
    Scans (first ++ second) (ts ++ us) := by
  intro found rest ends
  rw [List.append_assoc, left, right _ _ ends, List.reverse_append, List.append_assoc]

theorem Scans.append (left : Scans first ts) (right : Scans second us)
    (apart : EndsWord second) : Scans (first ++ second) (ts ++ us) := by
  intro found rest ends
  rw [List.append_assoc, left _ _ (apart.append ends), right _ _ ends, List.reverse_append,
    List.append_assoc]

theorem Scans.scan? (scanned : Scans first ts) : scan? first = some ts := by
  have run := scanned [] [] endsWord_nil
  rw [List.append_nil, List.append_nil] at run
  rw [Json.scan?, run]
  simp [scanFrom, scanEnd]

theorem splits_char {c : Char} (step : scanBetween c = some (.between, ts)) : Splits [c] ts := by
  intro found rest
  simp only [List.singleton_append, scanFrom, scanStep, step]

theorem splits_spaces (n : Nat) : Splits (List.replicate n ' ') [] := by
  have space : Splits [' '] [] := splits_char rfl
  induction n with
  | zero => exact fun _ _ => rfl
  | succ n ih => exact space.append ih

theorem scanFrom_word {word : List Char} (letters : ∀ c ∈ word, isWordChar c = true)
    (collected : List Char) (found : List Token) (rest : List Char) :
    scanFrom (.word collected, found) (word ++ rest) =
      scanFrom (.word (word.reverse ++ collected), found) rest := by
  induction word generalizing collected with
  | nil => rfl
  | cons c more ih =>
      have letter := letters c List.mem_cons_self
      simp only [List.cons_append, scanFrom, scanStep, letter, if_true, List.reverse_nil,
        List.nil_append]
      rw [ih fun d member => letters d (List.mem_cons_of_mem c member)]
      simp

theorem scanFrom_word_end {collected : List Char} {v : Json}
    (read : ofWord? collected.reverse = some v) (found : List Token) {rest : List Char}
    (ends : EndsWord rest) :
    scanFrom (.word collected, found) rest = scanFrom (.between, .atom v :: found) rest := by
  cases rest with
  | nil => simp [scanFrom, scanEnd, read]
  | cons c more =>
      have other : isWordChar c = false := ends c rfl
      simp only [scanFrom, scanStep, other, Bool.false_eq_true, if_false, read,
        Option.bind_eq_bind, Option.bind_some]
      cases scanBetween c with
      | none => rfl
      | some next => simp

theorem scans_word {word : List Char} {v : Json}
    (letters : ∀ c ∈ word, isWordChar c = true) (read : ofWord? word = some v) :
    Scans word [.atom v] := by
  intro found rest ends
  cases word with
  | nil => cases read
  | cons c more =>
      have letter := letters c List.mem_cons_self
      have opened : scanBetween c = some (.word [c], []) := by
        have notSpace : isSpace c = false := by
          cases space : isSpace c with
          | false => rfl
          | true =>
              have cases : ((c = ' ' ∨ c = '\n') ∨ c = '\t') ∨ c = '\r' := by
                simpa [isSpace] using space
              obtain ((rfl | rfl) | rfl) | rfl := cases <;> exact absurd letter (by decide)
        have notQuote : c ≠ '"' := by
          rintro rfl
          exact absurd letter (by decide)
        simp [scanBetween, notSpace, notQuote, letter]
      simp only [List.cons_append, scanFrom, scanStep, opened, List.reverse_nil, List.nil_append]
      rw [scanFrom_word fun d member => letters d (List.mem_cons_of_mem c member)]
      exact scanFrom_word_end (by simpa using read) found ends

theorem scanFrom_quoted_char {c : Char} (printable : 0x20 ≤ c.toNat) (quote : c ≠ '"')
    (backslash : c ≠ '\\') (collected : List Char) (found : List Token) (rest : List Char) :
    scanFrom (.quoted collected false, found) (c :: rest) =
      scanFrom (.quoted (c :: collected) false, found) rest := by
  simp [scanFrom, scanStep, Nat.not_lt.2 printable, quote, backslash]

theorem scanFrom_quoted_escape {c : Char} (printable : 0x20 ≤ c.toNat) (collected : List Char)
    (found : List Token) (rest : List Char) :
    scanFrom (.quoted collected false, found) ('\\' :: c :: rest) =
      scanFrom (.quoted (c :: '\\' :: collected) false, found) rest := by
  simp [scanFrom, scanStep, Nat.not_lt.2 printable]

/-- Inside a string the scanner passes every character as it is written. -/
theorem scanFrom_charText (c : Char) (collected : List Char) (found : List Token)
    (rest : List Char) :
    scanFrom (.quoted collected false, found) (charText c ++ rest) =
      scanFrom (.quoted ((charText c).reverse ++ collected) false, found) rest := by
  obtain ⟨letter, member, _, text⟩ | ⟨control, text⟩ | ⟨quote, backslash, printable, text⟩ :=
    charText_cases c
  · have printable : ∀ d ∈ ['"', '\\', 'b', 'f', 'n', 'r', 't'], 0x20 ≤ d.toNat := by simp
    rw [text]
    exact scanFrom_quoted_escape (printable letter member) collected found rest
  · obtain ⟨highPrintable, highQuote, highBackslash⟩ :=
      digitChar_printable (c.toNat / 16) (by omega)
    obtain ⟨lowPrintable, lowQuote, lowBackslash⟩ :=
      digitChar_printable (c.toNat % 16) (by omega)
    rw [text]
    simp only [List.cons_append, List.nil_append]
    rw [scanFrom_quoted_escape (by decide),
      scanFrom_quoted_char (by decide) (by decide) (by decide),
      scanFrom_quoted_char (by decide) (by decide) (by decide),
      scanFrom_quoted_char highPrintable highQuote highBackslash,
      scanFrom_quoted_char lowPrintable lowQuote lowBackslash]
    rfl
  · rw [text]
    exact scanFrom_quoted_char printable quote backslash collected found rest

theorem scanFrom_flatMap_charText (cs collected : List Char) (found : List Token)
    (rest : List Char) :
    scanFrom (.quoted collected false, found) (cs.flatMap charText ++ rest) =
      scanFrom (.quoted ((cs.flatMap charText).reverse ++ collected) false, found) rest := by
  induction cs generalizing collected with
  | nil => rfl
  | cons c more ih =>
      rw [List.flatMap_cons, List.append_assoc, scanFrom_charText, ih, List.reverse_append,
        List.append_assoc]

theorem splits_stringText (s : String) : Splits (stringText s) [.text (some s)] := by
  intro found rest
  have opened : scanFrom (.between, found) ('"' :: (s.toList.flatMap charText ++ '"' :: rest)) =
      scanFrom (.quoted [] false, found) (s.toList.flatMap charText ++ '"' :: rest) := rfl
  have closed : scanStep (.quoted (s.toList.flatMap charText).reverse false) '"' =
      some (.between, [.text (some s)]) := by
    simp [scanStep, textToken?_flatMap_charText]
  rw [stringText, List.cons_append, List.append_assoc, List.singleton_append, opened,
    scanFrom_flatMap_charText, List.append_nil]
  simp only [scanFrom, closed]

end TableView.Json
