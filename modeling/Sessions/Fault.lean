import Sessions.Calendar
import Sessions.Fault.Code

/-!
# Sessions.Fault

What can go wrong, by cause. `Fault.full` words a cause and `Fault.message` is the part of the
wording in front of the first zero byte, which is what callers and logs are shown.

* `Fault.isInvalidSession` marks the faults that say that a session cannot be used.
* `Fault.isOrdinary` marks those that a delivery or a sweep may swallow: all but `Fault.alien`,
  which stands for something thrown that carries no message.
-/

namespace Sessions

inductive Expiry where
  /-- It was idle for longer than its timeout when it was looked at. -/
  | idle (last now : Timestamp) (timeout : Millis)
  | marked
  /-- Another wording. -/
  | told (text : Text)
deriving DecidableEq, Repr

inductive Halt where
  | atTime (t : Timestamp)
  /-- Another wording. -/
  | told (text : Text)
deriving DecidableEq, Repr

inductive Fault where
  | general (code : Code) (text : Text)
  | config (code : Code) (field text : Text)
  | argument (code : Code) (field text : Text) (value : Option Text)
  /-- A session cannot be used, for the reason that the code gives. -/
  | session (code : Code) (id text : Text)
  | unknown (id : Text)
  | expired (id : Text) (why : Expiry)
  | stopped (id : Text) (how : Halt)
  /-- The session was invalid and a new one was started in its place. -/
  | replaced (old new : Text) (cause : Code)
  /-- The host may not start a session. An empty text stands for no host. -/
  | hostRefused (host : Text)
  | store (code : Code) (operation text : Text)
  /-- A failure of a callback or a collaborator, with its own words. -/
  | foreign (text : Text)
  /-- Something that carries neither code nor words. -/
  | alien
deriving DecidableEq, Repr

namespace Fault

/-! ## Wording -/

def expiryText (id : Text) : Expiry → Text
  | .idle last now timeout =>
    "Session with id [" ++ id ++ "] has expired. Last access time: " ++ last.text ++
      ". Current time: " ++ now.text ++ ". Session timeout is set to " ++
      Text.ofInt (timeout / 1000).toInt ++ " seconds (" ++
      Text.ofInt (timeout / 60000).toInt ++ " minutes)"
  | .marked => "Session with id [" ++ id ++ "] has already expired"
  | .told text => text

def haltText (id : Text) : Halt → Text
  | .atTime t =>
    "Session with id [" ++ id ++ "] has been explicitly stopped at " ++ t.text ++
      " and is no longer valid"
  | .told text => text

def full : Fault → Text
  | .general _ text => text
  | .config _ field text => "Configuration error in '" ++ field ++ "': " ++ text
  | .argument _ field text none => "Validation error in '" ++ field ++ "': " ++ text
  | .argument _ field text (some value) =>
    "Validation error in '" ++ field ++ "': " ++ text ++ " (value: '" ++ value ++ "')"
  | .session _ _ text => text
  | .unknown id => "There is no session with id [" ++ id ++ "]"
  | .expired id why => expiryText id why
  | .stopped id how => haltText id how
  | .replaced old new _ =>
    "Session with id [" ++ old ++ "] is invalid and was replaced by [" ++ new ++ "]"
  | .hostRefused host =>
    "Host [" ++ (if host = [] then ("<unknown>" : Text) else host) ++
      "] is not authorized to start a session"
  | .store _ operation text => "Store error during '" ++ operation ++ "': " ++ text
  | .foreign text => text
  | .alien => "unknown error"

/-- The wording up to its first zero byte. -/
def message (f : Fault) : Text := f.full.untilNul

/-! ## Classification -/

def code? : Fault → Option Code
  | .general c _ | .config c _ _ | .argument c _ _ _ | .session c _ _ | .store c _ _ => some c
  | .unknown _ => some .unknownSession
  | .expired _ _ => some .expiredSession
  | .stopped _ _ => some .stoppedSession
  | .replaced _ _ _ => some .replacedSession
  | .hostRefused _ => some .hostUnauthorized
  | .foreign _ | .alien => none

/-- Faults that say that a session cannot be used. -/
def isInvalidSession : Fault → Bool
  | .session .. | .unknown .. | .expired .. | .stopped .. | .replaced .. => true
  | _ => false

def isOrdinary : Fault → Bool
  | .alien => false
  | _ => true

/-! ## Causes by name -/

/-- Offending values are quoted up to this many bytes. -/
def quotedLength : Nat := 64

/-- A sweep interval that is not positive, in a configuration. -/
def configInterval (interval : Millis) : Fault :=
  .config .invalidInterval "validation_interval"
    ("Validation interval must be positive, got: " ++ Text.ofInt interval.toInt ++ "ms")

/-- A sweep interval that is not positive, as an argument. -/
def interval (interval : Millis) : Fault :=
  .argument .invalidInterval "interval" "Interval must be positive"
    (some (Text.ofInt interval.toInt ++ "ms"))

def hostMalformed (host : Text) : Fault :=
  if host = [] then .argument .invalidHost "host_address" "Host address cannot be empty" none
  else .argument .invalidHost "host_address" "Host address is not a valid IPv4 or IPv6 address"
    (some (host.take quotedLength))

def hostMissing : Fault :=
  .argument .missingHost "host_address" "A host address is required to start a session" none

def idMalformed (id : Text) : Fault :=
  if id = [] then .argument .invalidId "session_id" "Session ID cannot be empty" none
  else .argument .invalidId "session_id" "Invalid session ID format" (some (id.take quotedLength))

def keyMalformed (key : Text) : Fault :=
  if key = [] then .argument .invalidKey "attribute_key" "Attribute key cannot be empty" none
  else .argument .invalidKey "attribute_key" "Invalid attribute key"
    (some (key.take quotedLength))

/-- A collaborator that has to be there is not. -/
def missing (field text : Text) : Fault := .argument .invalidArgument field text none

def duplicate (id : Text) : Fault :=
  .store .duplicateSession "create" ("A session with id [" ++ id ++ "] already exists")

def storeFull (limit : Nat) : Fault :=
  .store .storeFull "create"
    ("Store holds the maximum of " ++ Text.decimal limit ++
      " sessions and none are eligible for eviction")

def persistence (path reason : Text) : Fault :=
  .store .persistenceFailed "persist"
    ("Failed to persist sessions to '" ++ path ++ "': " ++ reason)

end Fault
end Sessions
