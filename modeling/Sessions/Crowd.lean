import Sessions.Manager
import Sessions.Store

/-!
# Sessions.Crowd

Many callers of one manager at once. Every caller carries out one request after the other, and
between any two questions of a request the others may go on: what is done in one piece is a single
question, to the store or to the surroundings. Only the lock makes callers wait.

What a listener asks of the manager is asked by a caller of its own, who may come in at any time.

* `Crowd.step` is one question of one caller, `Crowd.run` any interleaving of them.
* A `Turn` says who goes on, and what the surroundings would answer: the time, the next id, whether
  a host is refused, the settings of the moment.
-/

namespace Sessions

namespace Manager

/-- What callers ask of a manager. -/
inductive Request where
  | start (host : Option Text)
  | call (id : Id) (ctx : Context) (c : Call)
  | isValid (id : Id) (ctx : Context)
  | lookup (id : Id) (ctx : Context)
  | getSession (id : Id) (ctx : Context)
  | sweep
deriving DecidableEq, Repr

/-- A program of which only the end matters. -/
def discard {α : Type} (p : Op α) : Op Unit := do
  let _ ← p
  return ()

def Request.program : Request → Op Unit
  | .start host => discard (Manager.start host)
  | .call id ctx c => discard (serve id ctx c)
  | .isValid id ctx => discard (Manager.isValid id ctx)
  | .lookup id ctx => discard (Manager.lookup id ctx)
  | .getSession id ctx => discard (Manager.getSession id ctx)
  | .sweep => discard Manager.sweep

end Manager

/-- A notification and the caller who issued it. -/
structure Notice (ι : Type) where
  caller : ι
  event : Event
  record : Record
deriving DecidableEq, Repr

structure Turn (ι : Type) where
  caller : ι
  /-- What the caller begins with, if nothing is left of its last request. -/
  request : Manager.Request
  now : Timestamp
  id : Id
  verdict : Except Fault Unit
  autoCreate : Bool
  timeout : Millis

structure Crowd (ι : Type) where
  store : Store
  /-- Who has the lock on transitions to an ended record. -/
  holder : Option ι
  /-- What is left of the request of each caller. -/
  task : ι → Manager.Op Unit
  notices : List (Notice ι)
  /-- The ids of the sessions that were ever in the store, the last one first. -/
  known : List Id

namespace Crowd

open Manager

variable {ι : Type} [DecidableEq ι]

/-- Callers before their first request. -/
def gather (store : Store) : Crowd ι :=
  { store, holder := none, task := fun _ => .done (.ok ()), notices := []
    known := store.records.list.map (·.id) }

/-- The answer to a question and the crowd behind it; none as long as the caller has to wait. -/
def answer (c : Crowd ι) (t : Turn ι) : (q : Question) → Option (Reply q × Crowd ι)
  | .clock => some (t.now, c)
  | .mint => some (t.id, c)
  | .allow _ | .ensureSweeping => some (t.verdict, c)
  | .autoCreate => some (t.autoCreate, c)
  | .timeout => some (t.timeout, c)
  | .read id => some (.ok (c.store.read id), c)
  | .live => some (.ok c.store.live, c)
  | .create r =>
    match c.store.create r with
    | .ok (store, _) => some (.ok (), { c with store, known := r.id :: c.known })
    | .error f => some (.error f, c)
  | .update r =>
    match c.store.update r with
    | .ok store => some (.ok (), { c with store })
    | .error f => some (.error f, c)
  | .count _ | .log _ _ => some ((), c)
  | .announce ev r => some ((), { c with notices := c.notices ++ [⟨t.caller, ev, r⟩] })
  | .lock => if c.holder = none then some ((), { c with holder := some t.caller }) else none
  | .unlock => some ((), { c with holder := none })

def assign (c : Crowd ι) (i : ι) (p : Op Unit) : Crowd ι :=
  { c with task := fun j => if j = i then p else c.task j }

/-- The caller whose turn it is asks the next question of its request, or begins with another
one. -/
def step (c : Crowd ι) (t : Turn ι) : Crowd ι :=
  match c.task t.caller with
  | .done _ => c.assign t.caller t.request.program
  | .ask q next =>
    match c.answer t q with
    | some (a, c') => c'.assign t.caller (next a)
    | none => c

def run (c : Crowd ι) (ts : List (Turn ι)) : Crowd ι := ts.foldl step c

/-- The record that the caller is about to write over another one, if that is what it asks next. -/
def writing? (c : Crowd ι) (i : ι) : Option Record :=
  match c.task i with
  | .ask (.update r) _ => some r
  | _ => none

/-- What was announced about the end of a session. -/
def endsOf (c : Crowd ι) (id : Id) : List (Notice ι) :=
  c.notices.filter fun n => n.event ≠ .start ∧ n.record.id = id

end Crowd
end Sessions
