/-!
# Log entries

* `LogEntry`    a span that was opened or an event that happened, with its fields as text.
-/

namespace Credentials

inductive LogLevel where
  | debug
  | info
  | warn
  deriving DecidableEq, Repr

/-- the name of a level -/
def LogLevel.text : LogLevel → String
  | .debug => "DEBUG"
  | .info => "INFO"
  | .warn => "WARN"

inductive LogKind where
  | span
  | event
  deriving DecidableEq, Repr

/-- the name of a kind -/
def LogKind.text : LogKind → String
  | .span => "span"
  | .event => "event"

/-- an entry of a log -/
structure LogEntry where
  kind : LogKind
  level : LogLevel
  /-- the name of a span, or the message of an event -/
  name : String
  fields : List (String × String)
  deriving DecidableEq, Repr

namespace LogEntry

/-- a span that is opened -/
def span (name : String) (fields : List (String × String)) : LogEntry :=
  ⟨.span, .info, name, fields⟩

def debug (name : String) (fields : List (String × String)) : LogEntry :=
  ⟨.event, .debug, name, fields⟩

def info (name : String) (fields : List (String × String)) : LogEntry :=
  ⟨.event, .info, name, fields⟩

def warn (name : String) (fields : List (String × String)) : LogEntry :=
  ⟨.event, .warn, name, fields⟩

end LogEntry

end Credentials
