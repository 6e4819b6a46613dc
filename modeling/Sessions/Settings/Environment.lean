import Sessions.Settings
import Sessions.Text.Numeral

/-!
# Sessions.Settings.Environment

Settings from environment variables. A variable that is unset or empty says nothing; a value ends
at a zero byte. Numbers are read from the front of the value, a switch is on for `true`, `1`, `yes`
and `on` in any case and off for every other value, a level goes by its name.

* `Environment.settings?` is the configuration that the variables describe, unless it is invalid.
-/

namespace Sessions

abbrev Environment := Text → Option Text

namespace Environment

/-- The value of a variable, if it has one that is not empty. -/
def value? (env : Environment) (name : Text) : Option Text :=
  match env name with
  | none => none
  | some v => if v.untilNul = [] then none else some v.untilNul

def int? (env : Environment) (name : Text) : Option Int64 :=
  (env.value? name).bind Text.leadingInt64?

def affirmations : List Text := ["true", "1", "yes", "on"]

def switch? (env : Environment) (name : Text) : Option Bool :=
  (env.value? name).map fun v => affirmations.contains v.lower

def timeout? (env : Environment) : Option Millis := env.int? "SV_SESSION_TIMEOUT_MS"
def interval? (env : Environment) : Option Millis := env.int? "SV_VALIDATION_INTERVAL_MS"
def autoCreate? (env : Environment) : Option Bool := env.switch? "SV_AUTO_CREATE_WHEN_INVALID"
def sweeping? (env : Environment) : Option Bool := env.switch? "SV_VALIDATION_SCHEDULER_ENABLED"
def level? (env : Environment) : Option Level := (env.value? "SV_LOG_LEVEL").bind Level.ofName?
def logFile? (env : Environment) : Option Text := env.value? "SV_LOG_FILE"

def changes (env : Environment) : List Settings.Change :=
  (env.timeout?.map .timeout).toList ++ (env.interval?.map .interval).toList ++
    (env.autoCreate?.map .autoCreate).toList ++ (env.sweeping?.map .sweeping).toList ++
    (env.level?.map .level).toList ++ (env.logFile?.map .logFile).toList

/-- The configuration that the variables describe, if it is a valid one. -/
def settings? (env : Environment) : Option Settings :=
  let s := Settings.changeAll {} env.changes
  if s.isValid then some s else none

end Environment
end Sessions
