import Sessions.Sweeper

/-!
# Sessions.Sweeper.Traffic

A sweeper between many callers and the threads that it started. A call is made of critical sections,
as the loop of a thread is, and between any two sections everybody else may go on. Those who call
come from outside, or they are the task itself, on the thread that runs it.

* `Traffic.act` is one section of one caller, or one move of one thread.
* `Traffic.after` is any order of them. What is not possible at the time changes nothing.
-/

namespace Sessions
namespace Sweeper

inductive Caller where
  | outside (n : Nat)
  /-- The task, as this thread runs it. -/
  | worker (w : WorkerId)
deriving DecidableEq, Repr

/-- The thread that the caller is. -/
def Caller.self : Caller → Option WorkerId
  | outside _ => none
  | worker w => some w

inductive Call where
  | enable
  | disable
  | setInterval (interval : Millis)
  | destroy
deriving DecidableEq, Repr

/-- What a call goes on with behind its first section. -/
inductive Rest where
  /-- Start a thread, unless the sweeper is on by then. -/
  | start
  /-- Take the last thread. -/
  | letGo
  | leave
deriving DecidableEq, Repr

/-- A call in progress: it waits for the end of the thread that it took, if any, and goes on. -/
structure Stage where
  taken : Option WorkerId
  rest : Rest
deriving DecidableEq, Repr

/-- The first section of a call; there is a stage behind it, unless that was all. -/
def first (s : Sweeper) (c : Caller) : Call → Sweeper × Option Stage
  | .enable => if s.running then (s, none) else (s.takeStale.2, some ⟨s.takeStale.1, .start⟩)
  | .disable =>
    if s.running then ((s.halt c.self).2, some ⟨(s.halt c.self).1, .leave⟩) else (s, none)
  | .setInterval interval =>
    match s.setInterval interval with
    | .ok s' => (s', none)
    | .error _ => (s, none)
  | .destroy =>
    if s.running then ((s.halt c.self).2, some ⟨(s.halt c.self).1, .letGo⟩)
    else (s, some ⟨none, .letGo⟩)

/-- The second section of enabling, or none: to put a new thread over one that nobody waited for ends
the program. There may be no thread to have. -/
def second (s : Sweeper) (available : Bool) : Option Sweeper :=
  if s.running then some s
  else if !available then some s
  else if s.thread.isSome then none
  else some s.begin.1

/-- The section behind the wait, unless there is none. -/
def resume (s : Sweeper) (available : Bool) : Rest → Option (Sweeper × Option Stage)
  | .start => (s.second available).map (·, none)
  | .letGo => some (s.takeStale.2, some ⟨s.takeStale.1, .leave⟩)
  | .leave => some (s, none)

inductive Action where
  | call (c : Caller) (k : Call)
  /-- A caller goes on with its call. The flag says whether there is a thread to have. -/
  | resume (c : Caller) (available : Bool)
  | enter (w : WorkerId)
  | wake (w : WorkerId)
  | elapse (w : WorkerId)
  | finish (w : WorkerId) (failure : Option Text)
deriving DecidableEq, Repr

structure Traffic where
  sweeper : Sweeper
  /-- The calls in progress. -/
  pending : Caller → Option Stage

namespace Traffic

/-- Nobody has called yet. -/
def quiet (s : Sweeper) : Traffic := ⟨s, fun _ => none⟩

/-- The caller does nothing else, and the task calls while it runs. -/
def mayCall (t : Traffic) : Caller → Bool
  | .outside n => t.pending (.outside n) = none
  | .worker w => t.pending (.worker w) = none ∧ t.sweeper.phase w = .sweeping

/-- The thread that was taken has ended. A caller does not wait for itself. -/
def joined (t : Traffic) (c : Caller) (stage : Stage) : Bool :=
  stage.taken.all fun w => c.self = some w ∨ t.sweeper.phase w = .ended

def put (t : Traffic) (c : Caller) (behind : Sweeper × Option Stage) : Traffic :=
  ⟨behind.1, fun c' => if c' = c then behind.2 else t.pending c'⟩

def act (t : Traffic) : Action → Traffic
  | .call c k => if t.mayCall c then t.put c (t.sweeper.first c k) else t
  | .resume c available =>
    match t.pending c with
    | none => t
    | some stage =>
      if t.joined c stage then
        match t.sweeper.resume available stage.rest with
        | some behind => t.put c behind
        | none => t
      else t
  | .enter w => { t with sweeper := t.sweeper.enter w }
  | .wake w => { t with sweeper := t.sweeper.wake w }
  | .elapse w => { t with sweeper := t.sweeper.elapse w }
  | .finish w failure =>
    -- the task does not return in the middle of a call
    if t.pending (.worker w) = none then { t with sweeper := (t.sweeper.finish w failure).1 } else t

def after (t : Traffic) (as : List Action) : Traffic := as.foldl act t

end Traffic
end Sweeper
end Sessions
