import TableView.Proofs.Json.Expressible
import TableView.Proofs.Json.Nesting

/-!
# Trees read from a text

Whatever a text spells, the tree that is read from it can be spelled and is nested no more deeply
than the limit allows (`read?_fits`). The scanner finds values without parts only, with numbers
that are finite and whole numbers within 64 bits. The machine keeps the parts of the containers
that are open as far from the limit as there are containers around them (`Reader.Fits`), and gives
no value to a container that is too deep.
-/

namespace TableView.Json

/-- Whether a tree can be spelled where so many containers may still be opened. -/
structure FitsIn (room : Nat) (v : Json) : Prop where
  expressible : v.isExpressible = true
  depth_le : v.depth ≤ room

theorem FitsIn.mono {small large : Nat} {v : Json} (fits : v.FitsIn small) (le : small ≤ large) :
    v.FitsIn large :=
  ⟨fits.expressible, fits.depth_le.trans le⟩

theorem fitsIn_unreadable (room : Nat) : unreadable.FitsIn room := ⟨rfl, Nat.zero_le room⟩

theorem fitsIn_str (room : Nat) (s : String) : (str s).FitsIn room := ⟨rfl, Nat.zero_le room⟩

theorem fitsIn_int {i : Int} (least : -0x8000000000000000 ≤ i) (greatest : i < 0x10000000000000000)
    (room : Nat) : (int i).FitsIn room := by
  refine ⟨?_, Nat.zero_le room⟩
  simp only [isExpressible, Bool.and_eq_true, decide_eq_true_eq]
  exact ⟨least, greatest⟩

theorem fitsIn_arr {room : Nat} {items : List Json} (fit : ∀ v ∈ items, v.FitsIn room) :
    (arr items).FitsIn (room + 1) :=
  ⟨isExpressible_arr.2 fun v mem => (fit v mem).expressible,
    (depth_arr_le_iff items).2 fun v mem => (fit v mem).depth_le⟩

theorem fitsIn_obj {room : Nat} {members : List (String × Json)}
    (fit : ∀ m ∈ members, m.2.FitsIn room) : (obj members).FitsIn (room + 1) :=
  ⟨isExpressible_obj.2 fun m mem => (fit m mem).expressible,
    (depth_obj_le_iff members).2 fun m mem => (fit m mem).depth_le⟩

variable {v : Json}

theorem fitsIn_ofDecimal [NumberReader] (negative : Bool) (d : Decimal) :
    (ofDecimal negative d).FitsIn 0 := by
  rw [ofDecimal]
  cases read : NumberReader.read? negative d with
  | none => exact fitsIn_unreadable 0
  | some x => exact ⟨NumberReader.isFinite_of_read? read, Nat.le_refl 0⟩

theorem fitsIn_ofWhole [NumberReader] (negative : Bool) (n : Nat) :
    (ofWhole negative n).FitsIn 0 := by
  rw [ofWhole]
  split
  next small =>
    simp only [Bool.and_eq_true, decide_eq_true_eq] at small
    exact fitsIn_int (by omega) (by omega) 0
  next =>
    split
    next small =>
      simp only [Bool.and_eq_true, decide_eq_true_eq] at small
      exact fitsIn_int (by omega) (by omega) 0
    next => exact fitsIn_ofDecimal negative ⟨n, 0⟩

theorem fitsIn_of_ofUnsigned? [NumberReader] {negative : Bool} {word : List Char}
    (read : ofUnsigned? negative word = some v) : v.FitsIn 0 := by
  simp only [ofUnsigned?] at read
  split at read
  next => cases read
  next =>
    split at read
    · cases read
      exact fitsIn_ofWhole negative _
    · cases read
    · cases read
      exact fitsIn_ofDecimal negative _
    · obtain ⟨e, -, rfl⟩ := Option.map_eq_some_iff.1 read
      exact fitsIn_ofDecimal negative _

theorem fitsIn_of_ofWord? [NumberReader] {word : List Char} (read : ofWord? word = some v) :
    v.FitsIn 0 := by
  have literal : ∀ {w : Json}, w.isExpressible = true → w.depth = 0 → some w = some v →
      v.FitsIn 0 := by
    rintro w expressible flat ⟨⟩
    exact ⟨expressible, Nat.le_of_eq flat⟩
  unfold ofWord? at read
  split at read
  · exact literal rfl rfl read
  · split at read
    · exact literal rfl rfl read
    · split at read
      · exact literal rfl rfl read
      · split at read <;> exact fitsIn_of_ofUnsigned? read

/-- Whether the value that a token has, if it has one, can be spelled and has no parts. -/
def Token.Fits : Token → Prop
  | .atom v => v.FitsIn 0
  | _ => True

theorem fits_of_punctuation? {c : Char} {t : Token} (read : punctuation? c = some t) : t.Fits := by
  rw [punctuation?.eq_def] at read
  split at read <;> cases read <;> trivial

theorem fits_of_scanBetween {c : Char} {mode : ScanMode} {tokens : List Token}
    (read : scanBetween c = some (mode, tokens)) : ∀ t ∈ tokens, t.Fits := by
  have none_ : ∀ t ∈ ([] : List Token), t.Fits := by simp
  rw [scanBetween] at read
  split at read
  · cases read
    exact none_
  · split at read
    · cases read
      exact none_
    · split at read
      · cases read
        exact none_
      · obtain ⟨t, found, same⟩ := Option.map_eq_some_iff.1 read
        cases same
        simpa using fits_of_punctuation? found

theorem fits_of_textToken? {raw : List Char} {t : Token} (read : textToken? raw = some t) :
    t.Fits := by
  obtain ⟨pieces, -, rfl⟩ := Option.map_eq_some_iff.1 read
  trivial

theorem fits_of_scanStep [NumberReader] {mode next : ScanMode} {c : Char} {tokens : List Token}
    (read : scanStep mode c = some (next, tokens)) : ∀ t ∈ tokens, t.Fits := by
  have none_ : ∀ t ∈ ([] : List Token), t.Fits := by simp
  cases mode with
  | between => exact fits_of_scanBetween read
  | word collected =>
      rw [scanStep] at read
      split at read
      · cases read
        exact none_
      · simp only [Option.bind_eq_bind, Option.bind_eq_some_iff, Option.some.injEq] at read
        obtain ⟨v, word, ⟨mode, later⟩, between, same⟩ := read
        cases same
        exact List.forall_mem_cons.2 ⟨fitsIn_of_ofWord? word, fits_of_scanBetween between⟩
  | quoted collected afterBackslash =>
      rw [scanStep] at read
      split at read
      · cases read
      · split at read
        · cases read
          exact none_
        · split at read
          · obtain ⟨t, text, same⟩ := Option.map_eq_some_iff.1 read
            cases same
            simpa using fits_of_textToken? text
          · cases read
            exact none_

theorem fits_of_scanEnd [NumberReader] {mode : ScanMode} {tokens : List Token}
    (read : scanEnd mode = some tokens) : ∀ t ∈ tokens, t.Fits := by
  cases mode with
  | between =>
      cases read
      simp
  | word collected =>
      obtain ⟨v, word, same⟩ := Option.map_eq_some_iff.1 read
      cases same
      exact List.forall_mem_singleton.2 (fitsIn_of_ofWord? word)
  | quoted collected afterBackslash => cases read

theorem fits_of_scanFrom [NumberReader] {state : ScanMode × List Token} {text : List Char}
    {tokens : List Token}
    (fit : ∀ t ∈ state.2, t.Fits) (read : scanFrom state text = some tokens) :
    ∀ t ∈ tokens, t.Fits := by
  induction text generalizing state with
  | nil =>
      obtain ⟨last, ended, rfl⟩ := Option.map_eq_some_iff.1 read
      have fitLast := fits_of_scanEnd ended
      intro t mem
      simp only [List.mem_reverse, List.mem_append] at mem
      exact mem.elim (fitLast t) (fit t)
  | cons c rest ih =>
      rw [scanFrom] at read
      split at read
      next => cases read
      next next_ found step =>
        refine ih ?_ read
        have fitFound := fits_of_scanStep step
        intro t mem
        simp only [List.mem_reverse, List.mem_append] at mem
        exact mem.elim (fitFound t) (fit t)

namespace Reader

/-- Whether the parts of all open containers fit into the room there is for them. -/
def StackFits : List Frame → Prop
  | [] => True
  | .array done :: below => (∀ v ∈ done, v.FitsIn (room below - 1)) ∧ StackFits below
  | .object done _ :: below => (∀ m ∈ done, m.2.FitsIn (room below - 1)) ∧ StackFits below

/-- Whether all that was read so far fits into the room there is for it. -/
def Fits : Reader → Prop
  | .value stack => StackFits stack
  | .firstItem stack => StackFits stack
  | .firstKey stack => StackFits stack
  | .key stack done => (∀ m ∈ done, m.2.FitsIn (room stack - 1)) ∧ StackFits stack
  | .colon stack done _ => (∀ m ∈ done, m.2.FitsIn (room stack - 1)) ∧ StackFits stack
  | .complete stack v => v.FitsIn (room stack) ∧ StackFits stack

/-- A container whose parts fit is closed with a value that fits, or with none if there is no room
for the container itself. -/
theorem fits_close {stack : List Frame} (inner : v.FitsIn (room stack - 1 + 1))
    (fits : StackFits stack) : (close stack v).Fits := by
  rw [close_eq]
  refine ⟨?_, fits⟩
  by_cases full : room stack = 0
  · rw [if_pos full]
    exact fitsIn_unreadable _
  · rw [if_neg full]
    exact inner.mono (by omega)

theorem fits_open? {stack : List Frame} {t : Token} {next : Reader} (fits : StackFits stack)
    (token : t.Fits) (read : open? stack t = some next) : next.Fits := by
  cases t with
  | atom v =>
      cases read
      exact ⟨token.mono (Nat.zero_le _), fits⟩
  | text s =>
      cases s <;> cases read
      · exact ⟨fitsIn_unreadable _, fits⟩
      · exact ⟨fitsIn_str _ _, fits⟩
  | openArray | openObject =>
      cases read
      exact fits
  | _ => cases read

theorem fits_objectOf {room : Nat} {done : List (Option String × Json)}
    (fit : ∀ m ∈ done, m.2.FitsIn room) : (objectOf done).FitsIn (room + 1) := by
  rw [objectOf]
  split
  next members named =>
    refine fitsIn_obj ?_
    intro m mem
    obtain ⟨part, known, keyed⟩ := exists_of_mapM named mem
    obtain ⟨k, -, rfl⟩ := Option.map_eq_some_iff.1 keyed
    exact fit part (List.mem_reverse.1 known)
  next => exact fitsIn_unreadable _

/-- A token keeps what was read so far within its room. -/
theorem fits_step? {r next : Reader} {t : Token} (fits : r.Fits) (token : t.Fits)
    (read : r.step? t = some next) : next.Fits := by
  cases r with
  | value stack => exact fits_open? fits token read
  | firstItem stack =>
      have inside : StackFits (.array [] :: stack) := ⟨by simp, fits⟩
      cases t with
      | closeArray =>
          cases read
          exact fits_close (fitsIn_arr (by simp)) fits
      | _ => exact fits_open? inside token read
  | firstKey stack =>
      cases t with
      | closeObject =>
          cases read
          exact fits_close (fitsIn_obj (by simp)) fits
      | text k =>
          cases read
          exact ⟨by simp, fits⟩
      | _ => cases read
  | key stack done =>
      cases t with
      | text k =>
          cases read
          exact fits
      | _ => cases read
  | colon stack done k =>
      cases t with
      | colon =>
          cases read
          exact fits
      | _ => cases read
  | complete stack v =>
      obtain ⟨value, open_⟩ := fits
      cases stack with
      | nil => cases read
      | cons frame below =>
          -- The value is one more part of the innermost container, which goes on or is closed.
          rw [room_cons] at value
          cases frame with
          | array done =>
              obtain ⟨parts, outer⟩ := open_
              have all := List.forall_mem_cons.2 ⟨value, parts⟩
              cases t with
              | comma =>
                  cases read
                  exact ⟨all, outer⟩
              | closeArray =>
                  cases read
                  exact fits_close (fitsIn_arr fun w mem => all w (List.mem_reverse.1 mem)) outer
              | _ => cases read
          | object done k =>
              obtain ⟨parts, outer⟩ := open_
              have all : ∀ m ∈ (k, v) :: done, m.2.FitsIn (room below - 1) :=
                List.forall_mem_cons.2 ⟨value, parts⟩
              cases t with
              | comma =>
                  cases read
                  exact ⟨all, outer⟩
              | closeObject =>
                  cases read
                  exact fits_close (fits_objectOf all) outer
              | _ => cases read

theorem fits_run? {r last : Reader} {tokens : List Token} (fits : r.Fits)
    (all : ∀ t ∈ tokens, t.Fits) (read : r.run? tokens = some last) : last.Fits := by
  induction tokens generalizing r with
  | nil =>
      cases read
      exact fits
  | cons t rest ih =>
      rw [List.forall_mem_cons] at all
      rw [run?] at read
      split at read
      next => cases read
      next step => exact ih (fits_step? fits all.1 step) all.2 read

end Reader

/-- What is read from a text can be spelled and is nested no more deeply than the limit allows. -/
theorem read?_fits [NumberReader] {text : String} (read : read? text = some v) :
    v.FitsIn nestingLimit := by
  obtain ⟨tokens, scanned, built⟩ := Option.bind_eq_some_iff.1 read
  obtain ⟨last, ran, result⟩ := Option.bind_eq_some_iff.1 built
  have all := fits_of_scanFrom (by simp) scanned
  have fits : last.Fits := Reader.fits_run? (show (Reader.value []).Fits from trivial) all ran
  cases last with
  | complete stack w =>
      cases stack with
      | nil =>
          cases result
          exact fits.1
      | cons frame below => cases result
  | _ => cases result

end TableView.Json
