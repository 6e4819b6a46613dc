import Sessions.Handle

/-!
# Sessions.Handle.Rehearsal

A handle that talks to a manager who follows a script. The manager notes every call; then it lets
the handle be used once more from inside the call, if that was arranged; then it replaces the
session, if replacements wait, or fails, if a fault was set for the id, or answers from a table.

`Rehearsal.perform` carries a command out. Its first argument says how deep calls may nest; at depth
zero what was arranged for the inside of a call is not carried out.
-/

namespace Sessions

namespace Rehearsal

inductive Command where
  /-- Let the manager replace sessions by these, one per call. -/
  | replace (ids : List Id)
  /-- Set the fault of an id, or take it back. -/
  | fail (id : Id) (fault : Option Fault)
  /-- Arrange for commands inside the next call. -/
  | reenter (steps : List Command)
  | sameManager
  | id
  | replacements
  | call (c : Call)
  | isValid

inductive Entry where
  | start (host : Option Text)
  | call (c : Call) (id : Id) (ctx : Context)
  | reentered (r : Except Fault Answer)

def hostText (host : Option Text) : Text := host.getD "<none>"

/-- A call as the notes write it: what for, for whom, and where the request comes from. -/
def callText (c : Call) (id : Id) (ctx : Context) : Text :=
  c.name ++ ":" ++ id ++ (match ctx.host with
    | some h => Text.byte '@' :: h
    | none => [])

end Rehearsal

structure Rehearsal where
  handle : Handle
  queue : List Id
  faults : List (Id × Fault)
  table : List Record
  notes : List Rehearsal.Entry
  arranged : List Rehearsal.Command
  log : Log

namespace Rehearsal

/-- The table's row of an id; one that is missing is empty. -/
def row (s : Rehearsal) (id : Id) : Record :=
  (s.table.find? (·.id = id)).getD (Record.new id 0 none 0)

/-- The answer of a row. Nothing is ever written to it. -/
def rowAnswer (r : Record) : (c : Call) → c.Result
  | .getStart => r.start
  | .getLastAccess => r.lastAccess
  | .getHost => r.host
  | .getTimeout => r.timeout
  | .setTimeout _ | .touch | .stop | .set _ _ | .checkValid => ()
  | .keys => r.attributes.keys
  | .get key | .remove key => r.attributes.get? key

def respond (c : Call) (id : Id) (s : Rehearsal) : Except Fault c.Result × Rehearsal :=
  match s.queue with
  | new :: rest => (.error (.replaced id new .expiredSession), { s with queue := rest })
  | [] =>
    match s.faults.lookup id with
    | some f => (.error f, s)
    | none => (.ok (rowAnswer (s.row id) c), s)

def note (s : Rehearsal) (e : Entry) : Rehearsal := { s with notes := s.notes ++ [e] }

/-- Carry out what was arranged, noting the answers. -/
def reenter (act : Command → Rehearsal → Except Fault Answer × Rehearsal) :
    List Command → Rehearsal → Rehearsal
  | [], s => s
  | c :: cs, s =>
    let (r, s) := act c s
    reenter act cs (s.note (.reentered r))

def call (act : Command → Rehearsal → Except Fault Answer × Rehearsal) (c : Call) (id : Id)
    (ctx : Context) (s : Rehearsal) : Except Fault c.Result × Rehearsal :=
  let s := s.note (.call c id ctx)
  respond c id (reenter act s.arranged { s with arranged := [] })

def client (act : Command → Rehearsal → Except Fault Answer × Rehearsal) : Client Rehearsal where
  handle := Rehearsal.handle
  setHandle h s := { s with handle := h }
  call := call act
  note level message s := { s with log := s.log.write level message }

def withoutFault (s : Rehearsal) (id : Id) : List (Id × Fault) := s.faults.filter (·.1 ≠ id)

/-- Carry a command out, given how commands inside a call are carried out. -/
def performWith (act : Command → Rehearsal → Except Fault Answer × Rehearsal) :
    Command → Rehearsal → Except Fault Answer × Rehearsal
  | .replace ids, s => (.ok .done, { s with queue := s.queue ++ ids })
  | .fail id none, s => (.ok .done, { s with faults := s.withoutFault id })
  | .fail id (some f), s => (.ok .done, { s with faults := (id, f) :: s.withoutFault id })
  | .reenter steps, s => (.ok .done, { s with arranged := steps })
  | .sameManager, s => (.ok (.flag true), s)
  | .id, s => (.ok (.id s.handle.id), s)
  | .replacements, s => (.ok (.count s.handle.replacements), s)
  | .call c, s =>
    let (r, s) := (client act).perform c s
    (r.map c.answer, s)
  | .isValid, s =>
    let (r, s) := (client act).isValid s
    (r.map .flag, s)

/-- Carry a command out, with calls nested up to a depth. -/
def perform : (depth : Nat) → Command → Rehearsal → Except Fault Answer × Rehearsal
  | 0, c, s => performWith (fun _ s => (.ok .done, s)) c s
  | n + 1, c, s => performWith (perform n) c s

/-- How deep calls nest inside of calls; a deeper one would do nothing. -/
def nestingLimit : Nat := 100000

def step (c : Command) (s : Rehearsal) : Except Fault Answer × Rehearsal :=
  perform nestingLimit c s

def ofHandle (h : Handle) (table : List Record) (log : Log) : Rehearsal :=
  { handle := h, queue := [], faults := [], table, notes := [], arranged := [], log }

/-- The id that the manager gives to the first session it starts. -/
def firstId : Id := "sess_100"

/-- Set the scene: bind a handle to an id, or start a session and bind a handle to it. -/
def begin (manager : Bool) (starting : Bool) (id : Id) (host : Option Text) (ctx : Context)
    (table : List Record) (log : Log) : Except Fault Rehearsal :=
  if !manager then .error Handle.noManager
  else if starting then
    (Handle.bind firstId ctx).map fun h =>
      (ofHandle h table log).note (.start (host <|> ctx.host))
  else (Handle.bind id ctx).map fun h => ofHandle h table log

end Rehearsal
end Sessions
