import Sessions.Sweeper

/-!
# Sessions.Sweeper.Owner

The owner of a sweeper: it uses it from outside, lets its task run, and at last destroys it. After
that there is no sweeper to use any more, and every command says so.
-/

namespace Sessions

structure SweeperOwner where
  sweeper : Option Sweeper
  log : Log

namespace SweeperOwner

inductive Command where
  | enable
  | disable
  | isEnabled
  | interval
  | setInterval (t : Millis)
  | counts
  | destroy
  /-- Let the task run with these outcomes, the words of a failure or none. In its last run it
  switches the sweeper off. -/
  | run (interval : Option Millis) (outcomes : List (Option Text))
  /-- Let the task run so many times. In its last run it destroys the sweeper. -/
  | runToDestruction (interval : Option Millis) (times : Nat)
deriving DecidableEq, Repr

inductive Reply where
  | done
  | flag (b : Bool)
  | span (t : Millis)
  | counts (runs failures : Nat)
  | count (n : Nat)
  | destroyed
deriving DecidableEq, Repr

def new (hasTask : Bool) (interval : Millis) (level : Level) : Except Fault SweeperOwner :=
  (Sweeper.new? hasTask interval).map fun s => ⟨some s, Log.new level⟩

/-- Go on with a changed sweeper, or with none, and what was logged. -/
def go (o : SweeperOwner) (s : Option Sweeper) (lines : List LogLine) : SweeperOwner :=
  ⟨s, o.log.writeAll lines⟩

def use (o : SweeperOwner) (s : Sweeper) : Command → Except Fault Reply × SweeperOwner
  | .enable =>
    let (s, lines) := s.enable none
    (.ok .done, o.go (some s) lines)
  | .disable =>
    let (s, lines) := s.disable none
    (.ok .done, o.go (some s) lines)
  | .isEnabled => (.ok (.flag s.running), o)
  | .interval => (.ok (.span s.interval), o)
  | .setInterval t =>
    match s.setInterval t with
    | .error f => (.error f, o)
    | .ok s => (.ok .done, o.go (some s) [])
  | .counts => (.ok (.counts s.runs s.failures), o)
  | .destroy => (.ok .done, o.go none (s.destroy none).2)
  | .run interval outcomes =>
    let (r, s, lines) := s.runThrough interval outcomes
    (r.map fun _ => .counts s.runs s.failures, o.go (some s) lines)
  | .runToDestruction interval times =>
    match s.runToDestruction interval (List.replicate times none) with
    | (.error f, s, lines) => (.error f, o.go (some s) lines)
    | (.ok _, s', lines) => (.ok (.count (s'.runs - s.runs)), o.go none lines)

def perform (o : SweeperOwner) (c : Command) : Except Fault Reply × SweeperOwner :=
  match o.sweeper with
  | none => (.ok .destroyed, o)
  | some s => o.use s c

end SweeperOwner
end Sessions
