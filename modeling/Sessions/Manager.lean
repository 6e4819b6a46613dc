import Sessions.Call
import Sessions.Factory
import Sessions.Log
import Sessions.Program
import Sessions.Registry

/-!
# Sessions.Manager

The manager of sessions, as programs that ask their surroundings for the time, for records, for
leave to start sessions. Every operation by id looks the session up first. A session that timed out
is marked expired on the way; in the place of an invalid one a new one is started, if the manager is
set to do so, and the caller is told its id.

* `Manager.lookup` is the access path of all operations; `getSession` turns what it finds into a
  record or a fault.
* `Manager.expireIfTimedOut` and the middle of `Manager.stop` are the two transitions to an ended
  record. They read and write under one lock, so a session ends once.
* `Manager.sweep` marks every live session that timed out.
-/

namespace Sessions
namespace Manager

inductive Counter where
  | started
  | stopped
  | expired
  | replaced
  | sweeps
deriving DecidableEq, Repr

inductive Question where
  | clock
  | mint
  /-- Leave for a host to start a session. -/
  | allow (host : Option Text)
  | read (id : Id)
  | create (r : Record)
  | update (r : Record)
  | live
  | count (c : Counter)
  | log (level : Level) (message : Text)
  | announce (e : Event) (r : Record)
  /-- Take the lock on transitions to an ended record. -/
  | lock
  | unlock
  /-- See to it that the background sweep is on, if it should be. -/
  | ensureSweeping
  | autoCreate
  | timeout
deriving DecidableEq, Repr

@[reducible] def Reply : Question → Type
  | .clock => Timestamp
  | .mint => Id
  | .allow _ | .create _ | .update _ | .ensureSweeping => Except Fault Unit
  | .read _ => Except Fault (Option Record)
  | .live => Except Fault (List Record)
  | .count _ | .log _ _ | .announce _ _ | .lock | .unlock => Unit
  | .autoCreate => Bool
  | .timeout => Millis

abbrev Op := Program Question Reply

/-! ## Single questions -/

def ask (q : Question) : Op (Reply q) := Program.question q

def clock : Op Timestamp := ask .clock
def mint : Op Id := ask .mint
def log (level : Level) (message : Text) : Op Unit := ask (.log level message)
def count (c : Counter) : Op Unit := ask (.count c)
def announce (e : Event) (r : Record) : Op Unit := ask (.announce e r)
def autoCreate : Op Bool := ask .autoCreate
def timeout : Op Millis := ask .timeout

/-- A question whose answer may be a fault, which then ends the program. -/
def allow (host : Option Text) : Op Unit := .ask (.allow host) .done
def read (id : Id) : Op (Option Record) := .ask (.read id) .done
def create (r : Record) : Op Unit := .ask (.create r) .done
def update (r : Record) : Op Unit := .ask (.update r) .done
def live : Op (List Record) := .ask .live .done
def ensureSweeping : Op Unit := .ask .ensureSweeping .done

/-- A program under the lock, which is let go of whatever comes out. -/
def locked {α : Type} (p : Op α) : Op α := do
  ask .lock
  let r ← p.attempt
  ask .unlock
  Program.ofExcept r

/-! ## Starting -/

def hostText (host : Option Text) : Text := host.getD "<none>"

def start (host : Option Text) : Op Id := do
  ensureSweeping
  let limit ← timeout
  allow host
  let id ← mint
  let now ← clock
  let r := Record.new id now host limit
  create r
  count .started
  log .debug ("Started session " ++ id ++ " for host " ++ hostText host)
  announce .start r
  return id

/-! ## Looking up -/

inductive Finding where
  | found (r : Record)
  /-- The session was invalid; a new one was started in its place. -/
  | replaced (old new : Id) (cause : Code)
  /-- The session cannot be used, and none was started. -/
  | invalid (id : Id) (why : Fault)
deriving DecidableEq, Repr

/-- Read a record again under the lock and mark it if it is timed out; says whether this did it. -/
def expireIfTimedOut (id : Id) (now : Timestamp) : Op (Option Record × Bool) :=
  locked do
    match ← read id with
    | none => return (none, false)
    | some r =>
      if r.validity now = .timedOut then
        let marked ← Program.ofExcept r.expire
        update marked
        count .expired
        return (some marked, true)
      else return (some r, false)

/-- Report an ended session, or start a new one in its place: for the host of the old one if it had
one, else for the host of the request. -/
def replaceOrReport (id : Id) (host : Option Text) (ctx : Context) (why : Fault) : Op Finding := do
  if ← autoCreate then
    let fresh ← start (host <|> ctx.host)
    count .replaced
    log .debug ("Session " ++ id ++ " is invalid (" ++ why.message ++ "), replaced by " ++ fresh)
    return .replaced id fresh (why.code?.getD .invalidSession)
  else return .invalid id why

/-- What goes on with a session that was found timed out: mark it, unless it was touched, ended or
removed in the meantime. -/
def lookupTimedOut (id : Id) (r : Record) (now : Timestamp) (ctx : Context) : Op Finding := do
  let (current, marked) ← expireIfTimedOut id now
  match current with
  | none => return .invalid id (.unknown id)
  | some c =>
    if marked then announce .expiration c
    match c.stopTime, c.validity now with
    | some t, _ => replaceOrReport id r.host ctx (.stopped id (.atTime t))
    | none, .valid => return .found c
    | none, _ => replaceOrReport id r.host ctx (.expired id (.idle r.lastAccess now r.timeout))

def lookup (id : Id) (ctx : Context) : Op Finding := do
  if id = [] then Program.fail (Fault.idMalformed id)
  ensureSweeping
  match ← read id with
  | none => return .invalid id (.unknown id)
  | some r =>
    let now ← clock
    match r.stopTime, r.validity now with
    | some t, _ => replaceOrReport id r.host ctx (.stopped id (.atTime t))
    | none, .valid => return .found r
    | none, .timedOut => lookupTimedOut id r now ctx
    | none, _ => replaceOrReport id r.host ctx (.expired id .marked)

def getSession (id : Id) (ctx : Context) : Op Record := do
  match ← lookup id ctx with
  | .found r => return r
  | .replaced old new cause => Program.fail (.replaced old new cause)
  | .invalid _ why => Program.fail why

def validateSession (id : Id) (ctx : Context) : Op Unit := do
  let _ ← getSession id ctx

/-- Whether a session is valid. That it cannot be used, or that its replacement is refused for its
host, is no fault here. -/
def isValid (id : Id) (ctx : Context) : Op Bool :=
  if id = [] then pure false
  else do
    match ← (validateSession id ctx).attempt with
    | .ok _ => return true
    | .error f =>
      if f.isInvalidSession then
        log .trace ("Session " ++ id ++ " is not valid: " ++ f.message)
        return false
      else
        match f with
        | .hostRefused _ =>
          log .trace ("Session " ++ id ++ " is not valid and could not be replaced: " ++ f.message)
          return false
        | _ => Program.fail f

/-! ## Changing and stopping -/

/-- Change a valid session at the time of the change. A change that comes to nothing is not
written. -/
def mutate {α : Type} (id : Id) (ctx : Context)
    (change : Record → Timestamp → Except Fault (α × Option Record)) : Op α := do
  let r ← getSession id ctx
  let now ← clock
  let (a, changed) ← Program.ofExcept (change r now)
  match changed with
  | none => return a
  | some r' =>
    update r'
    return a

def setTimeout (id : Id) (ctx : Context) (limit : Millis) : Op Unit :=
  mutate id ctx fun r _ => (r.setTimeout limit).map fun r' => ((), some r')

def touch (id : Id) (ctx : Context) : Op Unit :=
  mutate id ctx fun r now => (r.touch now).map fun r' => ((), some r')

/-- Drop an attribute. Where there is none nothing is written. -/
def remove (id : Id) (ctx : Context) (key : Text) : Op (Option Value) :=
  mutate id ctx fun r now => (r.remove key now).map fun (v, r') =>
    (v, if v.isSome then some r' else none)

/-- Write an attribute. The explicit "no value" drops it. -/
def set (id : Id) (ctx : Context) (key : Text) (value : Value) : Op Unit :=
  if value = .absent then do
    let _ ← remove id ctx key
  else mutate id ctx fun r now => (r.set key value now).map fun r' => ((), some r')

/-- Read a record again under the lock and stop it. -/
def stopNow (id : Id) : Op Record :=
  locked do
    match ← read id with
    | none => Program.fail (.unknown id)
    | some r =>
      let now ← clock
      let stopped ← Program.ofExcept (r.stop now)
      update stopped
      return stopped

def stop (id : Id) (ctx : Context) : Op Unit := do
  let _ ← getSession id ctx
  let stopped ← stopNow id
  count .stopped
  log .debug ("Stopped session " ++ id)
  announce .stop stopped

def serve (id : Id) (ctx : Context) : (c : Call) → Op c.Result
  | .getStart => do return (← getSession id ctx).start
  | .getLastAccess => do return (← getSession id ctx).lastAccess
  | .getHost => do return (← getSession id ctx).host
  | .getTimeout => do return (← getSession id ctx).timeout
  | .setTimeout limit => setTimeout id ctx limit
  | .touch => touch id ctx
  | .stop => stop id ctx
  | .keys => do return (← getSession id ctx).attributes.keys
  | .get key => do return (← getSession id ctx).attributes.get? key
  | .set key value => set id ctx key value
  | .remove key => remove id ctx key
  | .checkValid => validateSession id ctx

/-! ## Sweeping -/

/-- How a sweep went: sessions that it marked, sessions that it could not look after. -/
structure Tally where
  marked : Nat
  failed : Nat
deriving DecidableEq, Repr

/-- Mark one session of a sweep, if it is timed out; says whether this did it. -/
def sweepOne (r : Record) (now : Timestamp) : Op Bool :=
  if r.validity now = .timedOut then do
    match ← expireIfTimedOut r.id now with
    | (some c, true) =>
      announce .expiration c
      log .debug ("Expired idle session " ++ r.id)
      return true
    | _ => return false
  else pure false

/-- Go through the sessions of a sweep. A failure concerns the one session only. -/
def sweepAll (now : Timestamp) : List Record → Tally → Op Tally
  | [], t => pure t
  | r :: rs, t => do
    match ← (sweepOne r now).attempt with
    | .ok true => sweepAll now rs { t with marked := t.marked + 1 }
    | .ok false => sweepAll now rs t
    | .error f =>
      if f.isOrdinary then
        log .warn ("Unable to validate session " ++ r.id ++ ": " ++ f.message)
        sweepAll now rs { t with failed := t.failed + 1 }
      else Program.fail f

def Tally.text (t : Tally) : Text :=
  if 0 < t.marked ∨ 0 < t.failed then
    "Finished session validation. [" ++ Text.decimal t.marked ++ "] sessions were stopped" ++
      (if 0 < t.failed then ", [" ++ Text.decimal t.failed ++ "] failed" else [])
  else "Finished session validation. No sessions were stopped."

/-- Mark every live session that is timed out now; says how many there were. -/
def sweep : Op Nat := do
  log .info "Validating all active sessions..."
  let now ← clock
  let active ← live
  let t ← sweepAll now active ⟨0, 0⟩
  count .sweeps
  log .info t.text
  return t.marked

end Manager
end Sessions
