import Sessions.Files
import Sessions.Settings

/-!
# Sessions.Log.Logger

A logger with two sinks: a console and a file that it appends to. A file that cannot be opened is
reported on the console, and the console is on from then.
-/

namespace Sessions

structure Logger where
  level : Level
  console : Bool
  file : Option Text
  /-- What was written to the console and not taken yet. -/
  shown : Text
  files : Files
deriving DecidableEq, Repr

namespace Logger

def new (level : Level) (files : Files) : Logger :=
  { level, console := true, file := none, shown := [], files }

def configure (l : Logger) (p : LogPolicy) : Logger :=
  let l := { l with level := p.level, console := p.console, file := none }
  if p.toFile ∧ p.file ≠ [] then
    match l.files.append? p.file [] with
    | some files => { l with file := some p.file, files }
    | none =>
      { l with
        console := true
        shown := l.shown ++ "[sessionvault] failed to open log file '" ++ p.file ++
          "', logging to console\n" }
  else l

def isEnabled (l : Logger) (level : Level) : Bool := l.level.covers level

/-- Write a line to every sink that is on, if its level passes. -/
def log (l : Logger) (level : Level) (message : Text) : Logger :=
  if l.isEnabled level then
    let line := LogLine.text ⟨level, message⟩ ++ "\n"
    { l with
      shown := if l.console then l.shown ++ line else l.shown
      files := match l.file with
        | none => l.files
        | some path => (l.files.append? path line).getD l.files }
  else l

/-- Log a message that is made only if its level passes; says how often it was made. -/
def logLazily (l : Logger) (level : Level) (make : Unit → Text) : Nat × Logger :=
  if l.isEnabled level then (1, l.log level (make ())) else (0, l)

def clearShown (l : Logger) : Logger := { l with shown := [] }

/-- Put a file into place, if its path can be opened. -/
def putFile (l : Logger) (path text : Text) : Logger :=
  { l with files := l.files.put path text }

def setLevel (l : Logger) (level : Level) : Logger := { l with level }

end Logger
end Sessions
