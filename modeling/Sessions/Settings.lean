import Sessions.Fault
import Sessions.Log

/-!
# Sessions.Settings

The configuration of a session engine: life time policy, store limits, logging. `Settings.faults`
lists what is wrong with one, `Settings.check` raises the list as a single fault, and
`Settings.build` hands out checked settings only. A configuration is made from the defaults or a
preset by a list of `Settings.Change`.
-/

namespace Sessions

/-- How long sessions live and how they are replaced. -/
structure LifePolicy where
  /-- Timeout of new sessions, half an hour at first. -/
  timeout : Millis := 1800000
  /-- Time between two sweeps, an hour at first. -/
  interval : Millis := 3600000
  autoCreate : Bool := true
  /-- Sweep in the background, from the first access on. -/
  sweeping : Bool := true
  requireHost : Bool := false
deriving DecidableEq, Repr

structure StorePolicy where
  /-- Most records held; zero for no limit. -/
  maxSessions : Nat := 100000
  /-- File to keep the records in; empty for none. -/
  file : Text := []
  saveOnClose : Bool := true
deriving DecidableEq, Repr

structure LogPolicy where
  level : Level := .warn
  console : Bool := true
  toFile : Bool := false
  file : Text := []
deriving DecidableEq, Repr

structure Settings where
  life : LifePolicy := {}
  store : StorePolicy := {}
  log : LogPolicy := {}
deriving DecidableEq, Repr

namespace Settings

/-! ## Changes -/

inductive Change where
  | timeout (t : Millis)
  | interval (t : Millis)
  | autoCreate (on : Bool)
  | sweeping (on : Bool)
  | requireHost (on : Bool)
  | maxSessions (n : Nat)
  | storeFile (path : Text)
  | saveOnClose (on : Bool)
  | level (l : Level)
  | console (on : Bool)
  | logFile (path : Text)
deriving DecidableEq, Repr

def change (s : Settings) : Change → Settings
  | .timeout t => { s with life := { s.life with timeout := t } }
  | .interval t => { s with life := { s.life with interval := t } }
  | .autoCreate on => { s with life := { s.life with autoCreate := on } }
  | .sweeping on => { s with life := { s.life with sweeping := on } }
  | .requireHost on => { s with life := { s.life with requireHost := on } }
  | .maxSessions n => { s with store := { s.store with maxSessions := n } }
  | .storeFile path => { s with store := { s.store with file := path } }
  | .saveOnClose on => { s with store := { s.store with saveOnClose := on } }
  | .level l => { s with log := { s.log with level := l } }
  | .console on => { s with log := { s.log with console := on } }
  | .logFile path => { s with log := { s.log with toFile := true, file := path } }

def changeAll (s : Settings) (cs : List Change) : Settings := cs.foldl change s

/-! ## Checks -/

def lifeFault? (s : Settings) : Option Fault :=
  if s.life.interval ≤ 0 then some (Fault.configInterval s.life.interval) else none

def logFault? (s : Settings) : Option Fault :=
  if s.log.toFile ∧ s.log.file = [] then
    some (.config .invalidLogging "log_file_path"
      "File logging is enabled but no log file path was given")
  else none

def faults (s : Settings) : List Fault := s.lifeFault?.toList ++ s.logFault?.toList

def isValid (s : Settings) : Bool := s.faults.isEmpty

def reportLine (f : Fault) : Text := "  - " ++ f.message ++ "\n"

def report (fs : List Fault) : Text :=
  "Configuration validation failed:\n" ++ fs.flatMap reportLine

def check (s : Settings) : Except Fault Unit :=
  if s.faults = [] then .ok () else .error (.config .invalidConfig "config" (report s.faults))

def build (s : Settings) : Except Fault Settings := s.check.map fun _ => s

/-! ## Presets -/

/-- Short timeouts, frequent sweeps, much logging. -/
def development : Settings :=
  changeAll {} [.timeout 300000, .interval 60000, .sweeping true, .level .debug, .console true]

/-- The usual policy, hosts required, only errors logged. -/
def production : Settings :=
  changeAll {} [.timeout 1800000, .interval 3600000, .sweeping true, .requireHost true,
    .level .error, .console true]

/-- Sessions live until they are stopped; no background sweep. -/
def neverExpire : Settings :=
  changeAll {} [.timeout (-1), .interval 3600000, .sweeping false]

def preset (name : Text) : Settings :=
  if name = "development" then development
  else if name = "production" then production
  else if name = "never_expire" then neverExpire
  else {}

end Settings
end Sessions
