import StickArbiter.Text.Quoted

/-!
# Log lines

A line has a level, the part of the station that wrote it, and a text. What is logged is decided by
the events of each part; a line is how such an event is shown.
-/

namespace StickArbiter

/-- How much a log line matters. -/
inductive Level
  | trace
  | debug
  | info
  | warn
  | error
deriving DecidableEq, Repr

namespace Level

def all : List Level := [.trace, .debug, .info, .warn, .error]

def name : Level → String
  | .trace => "trace"
  | .debug => "debug"
  | .info => "info"
  | .warn => "warn"
  | .error => "error"

def label : Level → String
  | .trace => "TRACE"
  | .debug => "DEBUG"
  | .info => "INFO"
  | .warn => "WARN"
  | .error => "ERROR"

def ofName? (s : String) : Option Level := all.find? (·.name = s)

def rank : Level → Nat
  | .trace => 0
  | .debug => 1
  | .info => 2
  | .warn => 3
  | .error => 4

/-- Whether a line of level `l` is shown when the log starts at `threshold`. -/
def shownFrom (l threshold : Level) : Bool := threshold.rank ≤ l.rank

end Level

/-- One line of the log. -/
structure LogLine where
  level : Level
  /-- The part of the station that wrote the line. -/
  origin : String
  text : String
deriving DecidableEq, Repr

namespace LogLine

/-- How a character of a text is shown. Those that could begin an order to a terminal are given by
their number. -/
def shownChar (c : Char) : List Char :=
  match c with
  | '\x07' => ['\\', 'x', '0', '7']
  | '\x08' => ['\\', 'x', '0', '8']
  | '\x0c' => ['\\', 'x', '0', 'c']
  | '\x1b' => ['\\', 'x', '1', 'b']
  | '\x7f' => ['\\', 'x', '7', 'f']
  | c => if 0x80 ≤ c.toNat && c.toNat ≤ 0x9f then Text.numberedEscape c else [c]

def shown (l : LogLine) : String := String.ofList (l.text.toList.flatMap shownChar)

/-- The line without its origin. -/
def short (l : LogLine) : String := l.level.label ++ " " ++ l.shown

/-- The line with its origin. -/
def full (l : LogLine) : String := l.level.label ++ " " ++ l.origin ++ ": " ++ l.shown

/-- The written form of a value that may be missing. -/
def optionText (f : α → String) : Option α → String
  | none => "None"
  | some a => "Some(" ++ f a ++ ")"

end LogLine

end StickArbiter
