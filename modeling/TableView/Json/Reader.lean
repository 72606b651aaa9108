import TableView.Json.Token

/-!
# Reading a JSON text

Tokens drive a machine with a stack of open containers (`Reader.step?`). A state
says what may follow; every token that may not is a syntax error, and a text is
well formed when the machine ends with one complete value and nothing open.
-/

namespace TableView.Json

/-- An open container: its finished parts, latest first, and for an object the key of the
member being read. -/
inductive Frame where
  | array (done : List Json)
  | object (done : List (Option String × Json)) (key : Option String)

/-- What the text read so far calls for next. -/
inductive Reader where
  /-- A value must follow. -/
  | value (stack : List Frame)
  /-- An array was just opened: a value or the closing bracket. -/
  | firstItem (stack : List Frame)
  /-- An object was just opened: a key or the closing brace. -/
  | firstKey (stack : List Frame)
  /-- A key must follow. -/
  | key (stack : List Frame) (done : List (Option String × Json))
  /-- A key was read and its colon must follow. -/
  | colon (stack : List Frame) (done : List (Option String × Json)) (key : Option String)
  /-- A value is complete: a comma, a closing bracket or the end. -/
  | complete (stack : List Frame) (v : Json)

namespace Reader

/-- A container is complete. One that is nested too deeply has no value. -/
def close (stack : List Frame) (v : Json) : Reader :=
  .complete stack (if stack.length < nestingLimit then v else unreadable)

/-- The members of an object, latest first, as a value; a key without a value spoils it. -/
def objectOf (done : List (Option String × Json)) : Json :=
  match done.reverse.mapM fun (name, v) => name.map fun k => (k, v) with
  | some members => obj members
  | none => unreadable

/-- Starts a value with a token. -/
def open? (stack : List Frame) : Token → Option Reader
  | .atom v => some (.complete stack v)
  | .text (some s) => some (.complete stack (str s))
  | .text none => some (.complete stack unreadable)
  | .openArray => some (.firstItem stack)
  | .openObject => some (.firstKey stack)
  | _ => none

/-- Reads one token. -/
def step? : Reader → Token → Option Reader
  | .value stack, t => open? stack t
  | .firstItem stack, .closeArray => some (close stack (arr []))
  | .firstItem stack, t => open? (.array [] :: stack) t
  | .firstKey stack, .closeObject => some (close stack (obj []))
  | .firstKey stack, .text k => some (.colon stack [] k)
  | .key stack done, .text k => some (.colon stack done k)
  | .colon stack done k, .colon => some (.value (.object done k :: stack))
  | .complete (.array done :: stack) v, .comma => some (.value (.array (v :: done) :: stack))
  | .complete (.array done :: stack) v, .closeArray =>
    some (close stack (arr (v :: done).reverse))
  | .complete (.object done k :: stack) v, .comma => some (.key stack ((k, v) :: done))
  | .complete (.object done k :: stack) v, .closeObject =>
    some (close stack (objectOf ((k, v) :: done)))
  | _, _ => none

/-- Reads tokens in order. -/
def run? : Reader → List Token → Option Reader
  | r, [] => some r
  | r, t :: rest =>
    match step? r t with
    | none => none
    | some next => run? next rest

/-- The value when nothing is left open. -/
def result? : Reader → Option Json
  | .complete [] v => some v
  | _ => none

end Reader

/-- The value of a text's tokens. -/
def ofTokens? (tokens : List Token) : Option Json :=
  (Reader.run? (.value []) tokens).bind Reader.result?

/-- Reads a JSON text; none when it is malformed. -/
def read? [NumberReader] (text : String) : Option Json := (scan? text.toList).bind ofTokens?

end TableView.Json
