import Sessions.Attributes
import Sessions.Fault

/-!
# Sessions.Record

The record of one session: who it is, when it was last used, whether it ended, what it holds. A
record judges its own validity at a given time and guards its own mutation: once it is stopped or
marked expired nothing changes it any more.

* `Record.validity` is the classification, `Record.validate` the fault that goes with it.
* `Record.Op` lists everything that can be asked of a record, `Record.apply` answers it.
-/

namespace Sessions

abbrev Id := Text

/-- The state of a session at some time. -/
inductive Validity where
  | valid
  | stopped
  /-- Marked expired before. -/
  | expired
  /-- Idle for too long, not yet marked. -/
  | timedOut
deriving DecidableEq, Repr

namespace Validity

def name : Validity → Text
  | .valid => "VALID"
  | .stopped => "STOPPED"
  | .expired => "EXPIRED"
  | .timedOut => "TIMED_OUT"

/-- The states by number, from zero. -/
def ofNumber? : Int → Option Validity
  | 0 => some .valid
  | 1 => some .stopped
  | 2 => some .expired
  | 3 => some .timedOut
  | _ => none

/-- The name that goes with a number. -/
def nameOfNumber (n : Int) : Text :=
  match ofNumber? n with
  | some v => v.name
  | none => "UNKNOWN"

end Validity

structure Record where
  id : Id
  start : Timestamp
  lastAccess : Timestamp
  host : Option Text
  /-- Longest idle time; a negative one never runs out. -/
  timeout : Millis
  stopTime : Option Timestamp
  expired : Bool
  attributes : Attributes
deriving DecidableEq, Repr

namespace Record

/-- A fresh record, last used when it starts. -/
def new (id : Id) (start : Timestamp) (host : Option Text) (timeout : Millis) : Record :=
  { id, start, lastAccess := start, host, timeout, stopTime := none, expired := false
    attributes := Attributes.empty }

def isStopped (r : Record) : Bool := r.stopTime.isSome

/-- The session ended, one way or the other. -/
def isTerminal (r : Record) : Bool := r.isStopped || r.expired

/-- The time since the last access as a signed 64-bit number of milliseconds. -/
def idle (r : Record) (now : Timestamp) : Millis := (now - r.lastAccess).toInt64

/-- The state of the session at a time. An ended session stays as it ended; a live one times out
when it was idle for longer than its timeout. -/
def validity (r : Record) (now : Timestamp) : Validity :=
  if r.stopTime.isSome then .stopped
  else if r.expired then .expired
  else if 0 ≤ r.timeout ∧ r.lastAccess < now ∧ r.timeout < r.idle now then .timedOut
  else .valid

/-- The fault of an ended session, if it ended. -/
def endFault? (r : Record) : Option Fault :=
  match r.stopTime with
  | some t => some (.stopped r.id (.atTime t))
  | none => if r.expired then some (.expired r.id .marked) else none

/-- Says why the session cannot be used at a time, if it cannot. -/
def validate (r : Record) (now : Timestamp) : Except Fault Unit :=
  match r.validity now with
  | .valid => .ok ()
  | .timedOut => .error (.expired r.id (.idle r.lastAccess now r.timeout))
  | .stopped | .expired =>
    match r.endFault? with
    | some f => .error f
    | none => .ok ()

/-! ## Mutation -/

/-- A changed record, unless the session ended before. -/
def amend (r : Record) (changed : Record) : Except Fault Record :=
  match r.endFault? with
  | some f => .error f
  | none => .ok changed

/-- The last access moves forward, never back. -/
def advance (r : Record) (now : Timestamp) : Record := { r with lastAccess := max r.lastAccess now }

def touch (r : Record) (now : Timestamp) : Except Fault Record := r.amend (r.advance now)

def setTimeout (r : Record) (timeout : Millis) : Except Fault Record := r.amend { r with timeout }

/-- Without an attribute, used now if there was one to drop. -/
def without (r : Record) (key : Text) (now : Timestamp) : Record :=
  let (dropped, rest) := r.attributes.erase key
  if dropped.isSome then { r with attributes := rest }.advance now else r

/-- Drop an attribute. Only a removal that finds something counts as an access. -/
def remove (r : Record) (key : Text) (now : Timestamp) : Except Fault (Option Value × Record) :=
  (r.amend (r.without key now)).map fun r' => (r.attributes.get? key, r')

/-- Write an attribute. The explicit "no value" removes it; an empty key is refused before the
session itself is looked at. -/
def set (r : Record) (key : Text) (value : Value) (now : Timestamp) : Except Fault Record :=
  if value = .absent then (r.remove key now).map (·.2)
  else if key = [] then .error (Fault.keyMalformed key)
  else r.amend ({ r with attributes := r.attributes.set key value }.advance now)

def stop (r : Record) (now : Timestamp) : Except Fault Record :=
  r.amend ({ r with stopTime := some now }.advance now)

def expire (r : Record) : Except Fault Record := r.amend { r with expired := true }

def same (a b : Record) : Bool :=
  a.id == b.id && a.start == b.start && a.lastAccess == b.lastAccess && a.host == b.host &&
    a.timeout == b.timeout && a.stopTime == b.stopTime && a.expired == b.expired &&
    a.attributes.same b.attributes

/-! ## Operations as data -/

inductive Op where
  | touch (now : Timestamp)
  | setTimeout (timeout : Millis)
  | set (key : Text) (value : Value) (now : Timestamp)
  | remove (key : Text) (now : Timestamp)
  | stop (now : Timestamp)
  | expire
  | check (now : Timestamp)
  | isValid (now : Timestamp)
  | validate (now : Timestamp)
  | get (key : Text)
  | keys
  | attributeCount
  | terminal
deriving DecidableEq, Repr

inductive Answer where
  | done
  | validity (v : Validity)
  | flag (b : Bool)
  | value (v : Option Value)
  | keys (ks : List Text)
  | count (n : Nat)
deriving DecidableEq, Repr

def apply (r : Record) : Op → Except Fault (Answer × Record)
  | .touch now => (r.touch now).map (.done, ·)
  | .setTimeout timeout => (r.setTimeout timeout).map (.done, ·)
  | .set key value now => (r.set key value now).map (.done, ·)
  | .remove key now => (r.remove key now).map fun (v, r') => (.value v, r')
  | .stop now => (r.stop now).map (.done, ·)
  | .expire => r.expire.map (.done, ·)
  | .check now => .ok (.validity (r.validity now), r)
  | .isValid now => .ok (.flag (r.validity now == .valid), r)
  | .validate now => (r.validate now).map fun _ => (.done, r)
  | .get key => .ok (.value (r.attributes.get? key), r)
  | .keys => .ok (.keys r.attributes.keys, r)
  | .attributeCount => .ok (.count r.attributes.size, r)
  | .terminal => .ok (.flag r.isTerminal, r)

/-- An operation and the record behind it, changed or not. -/
def perform (r : Record) (op : Op) : Except Fault Answer × Record :=
  match r.apply op with
  | .ok (a, r') => (.ok a, r')
  | .error f => (.error f, r)

/-- Operations one after the other; a failed one does not keep the next from being tried. -/
def performAll (r : Record) : List Op → List (Except Fault Answer) × Record
  | [] => ([], r)
  | op :: ops =>
    let (a, r) := r.perform op
    let (as, r) := r.performAll ops
    (a :: as, r)

end Record
end Sessions
