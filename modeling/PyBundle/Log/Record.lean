/-!
# Log records

What a run tells about itself, apart from its result.
-/

namespace PyBundle

/-- **How much a log record matters.** -/
inductive Severity where
  | debug
  | info
  | warning
  deriving DecidableEq, Repr, Inhabited

/-- How a severity is written in front of a log record. -/
def Severity.label : Severity → String
  | debug => "DEBUG"
  | info => "INFO"
  | warning => "WARN"

/-- **A log record.** -/
structure LogRecord where
  severity : Severity
  text : String
  deriving DecidableEq, Repr, Inhabited

/-- **What a run has told so far.** -/
abbrev Log := List LogRecord

namespace LogRecord

/-- A record that only matters to those who look for a fault. -/
def debug (text : String) : LogRecord := ⟨.debug, text⟩

/-- A record that says what is done. -/
def info (text : String) : LogRecord := ⟨.info, text⟩

/-- A record of something that may not be as it is meant. -/
def warning (text : String) : LogRecord := ⟨.warning, text⟩

/-- How a record is written. -/
def display (r : LogRecord) : String := s!"{r.severity.label} {r.text}"

end LogRecord

end PyBundle
