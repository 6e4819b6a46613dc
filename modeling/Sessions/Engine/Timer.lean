import Sessions.Sweeper

/-!
# Sessions.Engine.Timer

What a manager uses to sweep in the background: a sweeper with its thread, or a stand-in that only
counts how often it was switched on and off, and whose switching may fail after the fact.
-/

namespace Sessions

inductive Temper where
  | steady
  /-- Switching off fails, without words. -/
  | offAlien
  | offFails
  /-- Switching on fails, and it stays off. -/
  | onFails
deriving DecidableEq, Repr

inductive Timer where
  | thread (s : Sweeper)
  | standIn (temper : Temper) (enabled : Bool) (interval : Millis) (ons offs : Nat)
deriving DecidableEq, Repr

namespace Timer

def fresh (temper : Temper) : Timer := .standIn temper false 0 0 0

def isEnabled : Timer → Bool
  | .thread s => s.running
  | .standIn _ enabled _ _ _ => enabled

def interval : Timer → Millis
  | .thread s => s.interval
  | .standIn _ _ interval _ _ => interval

def enable : Timer → Except Fault Unit × Timer × List LogLine
  | .thread s =>
    let (s, lines) := s.enable none
    (.ok (), .thread s, lines)
  | .standIn .onFails enabled interval ons offs =>
    (.error (.foreign "no threads left"), .standIn .onFails enabled interval (ons + 1) offs, [])
  | .standIn temper _ interval ons offs =>
    (.ok (), .standIn temper true interval (ons + 1) offs, [])

def disable : Timer → Except Fault Unit × Timer × List LogLine
  | .thread s =>
    let (s, lines) := s.disable none
    (.ok (), .thread s, lines)
  | .standIn temper _ interval ons offs =>
    let outcome : Except Fault Unit := match temper with
      | .offAlien => .error .alien
      | .offFails => .error (.foreign "timer stuck")
      | .steady | .onFails => .ok ()
    (outcome, .standIn temper false interval ons (offs + 1), [])

def setInterval (t : Timer) (interval : Millis) : Except Fault Timer :=
  match t with
  | .thread s => (s.setInterval interval).map .thread
  | .standIn temper enabled _ ons offs => .ok (.standIn temper enabled interval ons offs)

end Timer
end Sessions
