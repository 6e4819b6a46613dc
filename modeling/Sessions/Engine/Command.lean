import Sessions.Call
import Sessions.Clock
import Sessions.Engine.Timer
import Sessions.Manager
import Sessions.Record.Draft

/-!
# Sessions.Engine.Command

What can be asked of an engine, and what it answers. Listeners and hooks carry commands themselves,
so what happens inside a callback is written in the same words as what happens from outside.

* `Command` is everything: operations of the manager, of its store, of the handles, switches.
* `Ref` is how a command names a session.
* `Hook` is a disturbance: commands that are carried out in the middle of a later operation.
-/

namespace Sessions
namespace Engine

inductive Ref where
  | id (i : Id)
  /-- The session that came into being as the given one, counted from one; where there are fewer,
  an id. -/
  | started (n : Nat) (otherwise : Id)
  /-- The session that a listener is being told about; outside of listeners, an id. -/
  | subject (otherwise : Id)
deriving DecidableEq, Repr

inductive Point where
  | read
  | create
  | update
  | list
deriving DecidableEq, Repr

inductive StoreCommand where
  | read (r : Ref)
  | list
  | size
  | purge
  | setLimit (n : Nat)
  | metrics
  | change (r : Ref) (ops : List Record.Op)
  | put (d : Draft)
  | remove (r : Ref)
deriving DecidableEq, Repr

inductive HandleCommand where
  | id
  | replacements
  | call (c : Call)
  | isValid
deriving DecidableEq, Repr

inductive TimerKind where
  | thread (interval : Millis)
  | standIn (temper : Temper)
deriving DecidableEq, Repr

inductive Command where
  | start (host : Option Text)
  | call (c : Call) (r : Ref) (ctx : Context)
  | isValid (r : Ref) (ctx : Context)
  | validate (r : Ref) (ctx : Context)
  | getSession (r : Ref) (ctx : Context)
  | lookup (r : Ref) (ctx : Context)
  | sweep
  /-- Let the background sweep, then switch the background off. -/
  | awaitSweep
  | advanceClock (d : Timestamp)
  | setClock (t : Timestamp)
  | tickClock (step : Timestamp)
  | destroy
  | isDestroyed
  | setTimeout (t : Millis)
  | getTimeout
  | setInterval (t : Millis)
  | getInterval
  | setAutoCreate (on : Bool)
  | setSweeping (on : Bool)
  | isActive
  | stats
  /-- Use the timer of a name, making it if there is none yet; no name for no timer. -/
  | setTimer (name : Option Text) (kind : TimerKind)
  /-- Look at a timer; no name for the one in use. -/
  | timer (name : Option Text)
  /-- Switch a timer on or off, past the manager; no name for the one in use. -/
  | switchTimer (name : Option Text) (on : Bool)
  | listen (l : Listener Command)
  | listenNobody
  /-- Drop the registration of the listener that was last made under a name. -/
  | unlisten (name : Text)
  | store (c : StoreCommand)
  /-- Let every update of a session fail from now on. -/
  | poison (r : Ref)
  | cure
  | failCreate (on : Bool)
  | failList (on : Bool)
  /-- Carry out commands in the middle of the n-th use of the store from now. -/
  | hook (point : Point) (n : Nat) (reaction : Reaction Command)
  | setFilter (filter : Option (Option Text → Bool))
  | setRequireHost (on : Bool)
  | bind (handle : Text) (r : Ref) (ctx : Context)
  | startHandle (handle : Text) (host : Option Text) (ctx : Context)
  | handle (handle : Text) (c : HandleCommand)

/-- Events by kind. The counts have no bound; 64-bit counters agree with them as long as there are fewer
than `2 ^ 64` events of a kind. -/
structure Stats where
  started : Nat
  stopped : Nat
  expired : Nat
  replaced : Nat
  /-- Missing once the background took part. -/
  sweeps : Option Nat
deriving DecidableEq, Repr

inductive Reply where
  | answer (a : Answer)
  | record (r : Option Record)
  | records (rs : List Record)
  | finding (f : Manager.Finding)
  | stats (s : Stats)
  | timer (t : Option Timer)
  | metrics (m : List (String × Text))
  /-- What the operations on a stored record answered; missing if there was no record. -/
  | outcomes (os : Option (List (Except Fault Record.Answer)))

structure Hook where
  point : Point
  /-- Uses until it is due, this one included. -/
  remaining : Nat
  reaction : Reaction Command

end Engine
end Sessions
