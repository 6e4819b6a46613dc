import Sessions.Text

/-!
# Sessions.Log

Levels and lines of the diagnostic log. A level is a byte; zero silences, and a line passes when its
level is not zero and at most the current one. The names of the levels cover zero to five.
-/

namespace Sessions

/-- How much is logged, or how important a line is. -/
structure Level where
  rank : UInt8
deriving DecidableEq, Repr

namespace Level

def silent : Level := ⟨0⟩
def error : Level := ⟨1⟩
def warn : Level := ⟨2⟩
def info : Level := ⟨3⟩
def debug : Level := ⟨4⟩
def trace : Level := ⟨5⟩

def name (l : Level) : Text :=
  if l = silent then "NONE"
  else if l = error then "ERROR"
  else if l = warn then "WARN"
  else if l = info then "INFO"
  else if l = debug then "DEBUG"
  else if l = trace then "TRACE"
  else "UNKNOWN"

def ofName? (word : Text) : Option Level :=
  let w := word.upper
  if w = "NONE" then some silent
  else if w = "ERROR" then some error
  else if w = "WARN" ∨ w = "WARNING" then some warn
  else if w = "INFO" then some info
  else if w = "DEBUG" then some debug
  else if w = "TRACE" then some trace
  else none

/-- Whether a log at the level `current` takes lines of the level `l`. -/
def covers (current l : Level) : Bool := l.rank != 0 && l.rank ≤ current.rank

end Level

structure LogLine where
  level : Level
  message : Text
deriving DecidableEq, Repr

namespace LogLine

/-- The line as it is written, without time and thread. -/
def text (l : LogLine) : Text := "[" ++ l.level.name ++ "] " ++ l.message

end LogLine

/-- What was logged, oldest first, and the level that decides what is. -/
structure Log where
  level : Level
  lines : List LogLine
deriving DecidableEq, Repr

namespace Log

def new (level : Level) : Log := ⟨level, []⟩

def write (g : Log) (level : Level) (message : Text) : Log :=
  if g.level.covers level then { g with lines := g.lines ++ [⟨level, message⟩] } else g

/-- What came behind an earlier state of the log, as lines of text. A message may have several. -/
def textsSince (g earlier : Log) : List Text :=
  (g.lines.drop earlier.lines.length).flatMap fun l => Text.pieces (Text.byte '\n') l.text

def writeAll (g : Log) (ls : List LogLine) : Log :=
  ls.foldl (fun g l => g.write l.level l.message) g

end Log
end Sessions
