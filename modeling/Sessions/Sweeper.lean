import Sessions.Fault
import Sessions.Log

/-!
# Sessions.Sweeper

A sweeper runs a task again and again on a thread of its own, each time after a full interval. Its
operations are made of critical sections on shared state, and so is the loop of each thread it has
started; both are given here one section at a time.

* `Sweeper.Phase` is where a thread stands in its loop; `enter`, `wake`, `elapse` and `finish` move
  it. A thread tests the running flag whenever it comes back to the top of the loop or wakes up.
* `takeStale`, `begin`, `halt` and `setInterval` are the sections that callers execute. A caller
  that took a thread off the sweeper waits for its end, unless it is that very thread.
* `enable`, `disable` and `destroy` put the sections together for a caller whom no other caller
  disturbs.
-/

namespace Sessions

/-- Threads are numbered in the order in which they are started. -/
abbrev WorkerId := Nat

namespace Sweeper

inductive Phase where
  /-- At the top of the loop, about to test whether to go on. -/
  | entering
  /-- Waiting for an interval to pass, since the interval was set for the given time. -/
  | waiting (generation : Nat)
  | sweeping
  | ended
deriving DecidableEq, Repr

end Sweeper

/-- The generation, the runs and the failures are counts without a bound; 64-bit counters agree with them
as long as there are fewer than `2 ^ 64` events of a kind. -/
structure Sweeper where
  interval : Millis
  /-- How often the interval was set. -/
  generation : Nat
  running : Bool
  runs : Nat
  failures : Nat
  /-- The thread that the sweeper answers for. -/
  thread : Option WorkerId
  /-- Every thread that was started, by number. -/
  workers : List Sweeper.Phase
deriving DecidableEq, Repr

namespace Sweeper

/-- A sweeper that is switched off. It needs a task and a positive interval. -/
def new? (hasTask : Bool) (interval : Millis) : Except Fault Sweeper :=
  if !hasTask then .error (Fault.missing "task" "Validation task cannot be empty")
  else if interval ≤ 0 then .error (Fault.interval interval)
  else .ok { interval, generation := 0, running := false, runs := 0, failures := 0, thread := none
             workers := [] }

/-! ## The loop of a thread -/

def phase (s : Sweeper) (w : WorkerId) : Phase := s.workers.getD w .ended

def moveTo (s : Sweeper) (w : WorkerId) (p : Phase) : Sweeper :=
  { s with workers := s.workers.set w p }

/-- The top of the loop: wait for an interval, or end. -/
def enter (s : Sweeper) (w : WorkerId) : Sweeper :=
  match s.phase w with
  | .entering => s.moveTo w (if s.running then .waiting s.generation else .ended)
  | _ => s

/-- A waiting thread is woken: it ends if it should, and waits anew if the interval was set. -/
def wake (s : Sweeper) (w : WorkerId) : Sweeper :=
  match s.phase w with
  | .waiting g =>
    if !s.running then s.moveTo w .ended
    else if s.generation ≠ g then s.moveTo w (.waiting s.generation)
    else s
  | _ => s

/-- The interval of a waiting thread has passed: it runs the task, unless it finds a reason to wake
up instead. -/
def elapse (s : Sweeper) (w : WorkerId) : Sweeper :=
  match s.phase w with
  | .waiting g => if s.running ∧ s.generation = g then s.moveTo w .sweeping else s.wake w
  | _ => s

/-- The task comes back, with the words of its failure if it failed. -/
def finish (s : Sweeper) (w : WorkerId) (failure : Option Text) : Sweeper × List LogLine :=
  match s.phase w, failure with
  | .sweeping, none => ({ s with runs := s.runs + 1 }.moveTo w .entering, [])
  | .sweeping, some words =>
    ({ s with failures := s.failures + 1 }.moveTo w .entering,
      [⟨.error, "Session validation sweep failed: " ++ words.untilNul⟩])
  | _, _ => (s, [])

/-! ## What callers do -/

/-- First section of enabling: take a thread that an earlier call left behind. -/
def takeStale (s : Sweeper) : Option WorkerId × Sweeper := (s.thread, { s with thread := none })

/-- Second section of enabling: start a thread. -/
def begin (s : Sweeper) : Sweeper × List LogLine :=
  if s.running then (s, [])
  else
    ({ s with
       running := true
       thread := some s.workers.length
       workers := s.workers ++ [.entering] },
      [⟨.info, "Session validation scheduler enabled, interval " ++ Text.ofInt s.interval.toInt ++
        "ms"⟩])

/-- The section of disabling: lower the flag and take the thread, unless the caller is it. -/
def halt (s : Sweeper) (caller : Option WorkerId) : Option WorkerId × Sweeper :=
  if s.thread = caller then (none, { s with running := false })
  else (s.thread, { s with running := false, thread := none })

def setInterval (s : Sweeper) (interval : Millis) : Except Fault Sweeper :=
  if interval ≤ 0 then .error (Fault.interval interval)
  else .ok { s with interval, generation := s.generation + 1 }

/-! ## Undisturbed calls -/

/-- Wait for the end of a thread that was taken. A caller does not wait for itself. -/
def join (s : Sweeper) (caller taken : Option WorkerId) : Sweeper :=
  match taken with
  | none => s
  | some w => if caller = some w then s else s.moveTo w .ended

/-- Switch the sweeper on; nothing changes if it is on. -/
def enable (s : Sweeper) (caller : Option WorkerId) : Sweeper × List LogLine :=
  if s.running then (s, [])
  else
    let (stale, s) := s.takeStale
    (s.join caller stale).begin

/-- Switch the sweeper off; nothing changes if it is off. -/
def disable (s : Sweeper) (caller : Option WorkerId) : Sweeper × List LogLine :=
  if s.running then
    let (taken, s) := s.halt caller
    (s.join caller taken, [⟨.info, "Session validation scheduler disabled"⟩])
  else (s, [])

/-- Switch the sweeper off and let go of its last thread. -/
def destroy (s : Sweeper) (caller : Option WorkerId) : Sweeper × List LogLine :=
  let (s, lines) := s.disable caller
  let (last, s) := s.takeStale
  (s.join caller last, lines)

/-! ## Whole runs -/

/-- The thread of the sweeper goes through one round up to the inside of the task. -/
def startRound (s : Sweeper) (w : WorkerId) : Sweeper := (((s.enter w).wake w).elapse w)

/-- The thread goes through a list of rounds, each with its outcome. Inside the last task it carries
out a call on its own sweeper, and then the loop comes to its end. -/
def rounds (last : Sweeper → Sweeper × List LogLine) (w : WorkerId) :
    List (Option Text) → Sweeper → Sweeper × List LogLine
  | [], s => (s, [])
  | [o], s =>
    let (s, called) := last (s.startRound w)
    let (s, lines) := s.finish w o
    (s.enter w, called ++ lines)
  | o :: os, s =>
    let (s, lines) := (s.startRound w).finish w o
    let (s, rest) := s.rounds last w os
    (s, lines ++ rest)

def roundsOfThread (s : Sweeper) (last : WorkerId → Sweeper → Sweeper × List LogLine)
    (outcomes : List (Option Text)) : Sweeper × List LogLine :=
  match s.thread with
  | none => (s, [])
  | some w => s.rounds (last w) w outcomes

/-- Switch on, set the interval if one is given, and let the task run with the given outcomes.
Inside the last run the thread carries out a call on its own sweeper. -/
def drive (s : Sweeper) (last : WorkerId → Sweeper → Sweeper × List LogLine)
    (interval : Option Millis) (outcomes : List (Option Text)) :
    Except Fault Unit × Sweeper × List LogLine :=
  let (s, lines) := s.enable none
  match interval.elim (.ok s) s.setInterval with
  | .error f => (.error f, s, lines)
  | .ok s =>
    let (s, more) := s.roundsOfThread last outcomes
    (.ok (), s, lines ++ more)

/-- A run whose last round switches the sweeper off. -/
def runThrough (s : Sweeper) : Option Millis → List (Option Text) →
    Except Fault Unit × Sweeper × List LogLine :=
  s.drive fun w s => s.disable (some w)

/-- A run whose last round destroys the sweeper from inside. -/
def runToDestruction (s : Sweeper) : Option Millis → List (Option Text) →
    Except Fault Unit × Sweeper × List LogLine :=
  s.drive fun w s => s.destroy (some w)

end Sweeper
end Sessions
