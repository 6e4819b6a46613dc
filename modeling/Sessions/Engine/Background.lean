import Sessions.Engine.Command

/-!
# Sessions.Engine.Background

The background of an engine: which timer it uses, whether it should be on, whether it is thought to
be on. Timers are made once per name and stay; the engine makes one of its own where none was given.
A timer that refuses to be switched off is logged and left alone.

* `Background.ensure` comes in front of every start and look-up: it switches the timer on, also when
  somebody else switched it off, unless the background is not wanted or came to its end.
* `Background.rest` and `Background.destroy` switch it off, `Background.install` exchanges the
  timer.
-/

namespace Sessions

inductive CurrentTimer where
  | nothing
  | own (t : Timer)
  | named (name : Text)
deriving DecidableEq, Repr

structure Background where
  interval : Millis
  wanted : Bool
  destroyed : Bool
  /-- The timer was switched on and not off since. -/
  active : Bool
  timers : List (Text × Timer)
  current : CurrentTimer
deriving DecidableEq, Repr

namespace Background

def new (interval : Millis) (wanted : Bool) : Background :=
  { interval, wanted, destroyed := false, active := false, timers := [], current := .nothing }

def named? (b : Background) (name : Text) : Option Timer := b.timers.lookup name

def timer? (b : Background) : Option Timer :=
  match b.current with
  | .nothing => none
  | .own t => some t
  | .named name => b.named? name

def putNamed (b : Background) (name : Text) (t : Timer) : Background :=
  { b with timers := (name, t) :: b.timers.filter (·.1 ≠ name) }

def putTimer (b : Background) (t : Timer) : Background :=
  match b.current with
  | .nothing | .own _ => { b with current := .own t }
  | .named name => b.putNamed name t

/-! ## On and off -/

def switchOn (b : Background) (t : Timer) : Except Fault Unit × Background × List LogLine :=
  match t.enable with
  | (.ok _, t, lines) => (.ok (), { b.putTimer t with active := true }, lines)
  | (.error f, t, lines) => (.error f, b.putTimer t, lines)

/-- What the log says when the engine makes a timer of its own. -/
def ownTimerText (interval : Millis) : Text :=
  "No session validation scheduler set, creating default with interval " ++
    Text.ofInt interval.toInt ++ "ms"

/-- See to it that the timer is on, if it should be. -/
def ensure (b : Background) : Except Fault Unit × Background × List LogLine :=
  if !b.wanted || b.destroyed then (.ok (), b, [])
  else
    match b.timer? with
    | some t => if b.active && t.isEnabled then (.ok (), b, []) else b.switchOn t
    | none =>
      match Sweeper.new? true b.interval with
      | .error f => (.error f, b, [⟨.info, ownTimerText b.interval⟩])
      | .ok s =>
        let (r, b, lines) := switchOn { b with current := .own (.thread s) } (.thread s)
        (r, b, ⟨.info, ownTimerText b.interval⟩ :: lines)

/-- What the log says about a timer that cannot be switched off. -/
def stuckText (f : Fault) : Text :=
  "Unable to disable session validation scheduler. Ignoring (shutting down)... " ++ f.message

/-- Switch a timer off, whatever it says. -/
def quiet (t : Timer) : Timer × List LogLine :=
  match t.disable with
  | (.ok _, t, lines) => (t, lines)
  | (.error f, t, lines) => (t, lines ++ [⟨.debug, stuckText f⟩])

def rest (b : Background) : Background × List LogLine :=
  let b := { b with active := false }
  match b.timer? with
  | none => (b, [])
  | some t =>
    let (t, lines) := quiet t
    (b.putTimer t, lines)

/-- Switch the background off for good. -/
def destroy (b : Background) : Background × List LogLine :=
  if b.destroyed then (b, []) else { b with destroyed := true }.rest

/-- Say whether the background should be on. It goes off at once, and on with the next use. -/
def want (b : Background) (on : Bool) : Background × List LogLine :=
  if on then ({ b with wanted := true }, []) else { b with wanted := false }.rest

/-! ## Timers -/

def make (kind : Engine.TimerKind) : Except Fault Timer :=
  match kind with
  | .thread interval => (Sweeper.new? true interval).map .thread
  | .standIn temper => .ok (.fresh temper)

def withNamed (b : Background) (name : Text) (kind : Engine.TimerKind) : Except Fault Background :=
  match b.named? name with
  | some _ => .ok b
  | none => (make kind).map fun t => b.putNamed name t

/-- Exchange the timer in use. The one before is switched off, unless it is the same. -/
def exchange (b : Background) (next : CurrentTimer) : Background × List LogLine :=
  let b' := { b with current := next, active := false }
  match b.current with
  | .nothing => (b', [])
  | .own t => (b', (quiet t).2)
  | .named name =>
    if next = .named name then (b', [])
    else
      match b.named? name with
      | none => (b', [])
      | some t =>
        let (t, lines) := quiet t
        (b'.putNamed name t, lines)

/-- Use the timer of a name, which is made if there is none yet, or no timer. -/
def install (b : Background) (name : Option Text) (kind : Engine.TimerKind) :
    Except Fault (Background × List LogLine) :=
  match name with
  | none => .ok (b.exchange .nothing)
  | some name => (b.withNamed name kind).map fun b => b.exchange (.named name)

/-- Set the interval, also of the timer in use. -/
def setInterval (b : Background) (interval : Millis) : Except Fault Background :=
  if interval ≤ 0 then .error (Fault.interval interval)
  else
    let b := { b with interval }
    match b.timer? with
    | none => .ok b
    | some t => (t.setInterval interval).map b.putTimer

/-- A timer by its name, or the one in use. -/
def find? (b : Background) : Option Text → Option Timer
  | none => b.timer?
  | some name => b.named? name

/-- Put a timer back to where `find?` found it. -/
def put (b : Background) (t : Timer) : Option Text → Background
  | none => b.putTimer t
  | some name => b.putNamed name t

def switch (b : Background) (name : Option Text) (on : Bool) :
    Except Fault Unit × Background × List LogLine :=
  match b.find? name with
  | none => (.ok (), b, [])
  | some t =>
    let (r, t, lines) := if on then t.enable else t.disable
    (r, b.put t name, lines)

end Background
end Sessions
