/-! # Traces and logs

A procedure is traced at one of three **levels**: not at all, with a transcript of the emitted
instructions, or in full, so that the procedure also reports what it does when it runs. Transcript and
report go to a **sink**: a memory of lines, or the log. A log keeps the records that are at most as
verbose as its level. -/

namespace Stackwright

/-- How **verbose** a log record is, or the most verbose one a log keeps. -/
inductive LogLevel
  | off | error | warn | info | debug | trace
  deriving DecidableEq

namespace LogLevel

/-- The levels in order of verbosity. -/
def rank : LogLevel → Nat
  | .off => 0
  | .error => 1
  | .warn => 2
  | .info => 3
  | .debug => 4
  | .trace => 5

/-- Every level, the least verbose first. -/
def all : List LogLevel := [.off, .error, .warn, .info, .debug, .trace]

/-- The name of a level. -/
def name : LogLevel → String
  | .off => "off"
  | .error => "error"
  | .warn => "warn"
  | .info => "info"
  | .debug => "debug"
  | .trace => "trace"

/-- Whether a log of the first level keeps a record of the second. -/
def keeps (limit level : LogLevel) : Bool := level.rank ≤ limit.rank

end LogLevel

/-- How much is **traced**. -/
inductive TraceDetail
  /-- Nothing. -/
  | off
  /-- The emitted instructions. -/
  | log
  /-- The emitted instructions, and their effects whenever the procedure runs. -/
  | full
  deriving DecidableEq

namespace TraceDetail

/-- The level that goes with a log. -/
def ofLogLevel : LogLevel → TraceDetail
  | .trace => .full
  | .debug => .log
  | .off | .error | .warn | .info => .off

/-- The text of a level. -/
def name : TraceDetail → String
  | .off => "off"
  | .log => "log"
  | .full => "full"

/-- The name of a level in diagnostics. -/
def debug : TraceDetail → String
  | .off => "Off"
  | .log => "Log"
  | .full => "Full"

end TraceDetail

/-- Where traces **go**. -/
inductive Sink
  /-- The log. -/
  | log
  /-- A memory of lines, by its number. -/
  | memory (index : Nat)
  deriving DecidableEq

/-- Something that building a procedure makes known. -/
inductive Notice
  /-- A numbered line of the transcript, for the sink. -/
  | line (number : Nat) (text : String)
  /-- A message for the log. -/
  | message (level : LogLevel) (text : String)
  deriving DecidableEq

/-- What a log record is about. -/
inductive Channel
  /-- Building procedures in general. -/
  | general
  /-- The traces of a procedure. -/
  | traces
  deriving DecidableEq

/-- A **log record**. -/
structure LogRecord where
  /-- How verbose the record is. -/
  level : LogLevel
  /-- What it is about. -/
  channel : Channel
  /-- What it says. -/
  text : String
  deriving DecidableEq

/-- A number with at least five digits, as lines are numbered. -/
def lineNumber (n : Nat) : String :=
  let digits := Nat.toDigits 10 n
  String.ofList (List.replicate (5 - digits.length) '0' ++ digits)

/-- A transcript line behind its number. -/
def numberedLine (number : Nat) (text : String) : String := lineNumber number ++ ": " ++ text

end Stackwright
