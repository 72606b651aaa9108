/-!
# Log lines

What an operation reports besides its answer.
-/

namespace TableView

/-- How important a log line is. -/
inductive LogLevel where
  | trace
  | debug
  | info
  | warn
deriving DecidableEq

/-- The name of a level. -/
def LogLevel.name : LogLevel → String
  | trace => "TRACE"
  | debug => "DEBUG"
  | info => "INFO"
  | warn => "WARN"

/-- A log line. -/
structure LogLine where
  level : LogLevel
  message : String
deriving DecidableEq

/-- The line as it is written: its level and its message. -/
def LogLine.text (line : LogLine) : String := line.level.name ++ " " ++ line.message

end TableView
