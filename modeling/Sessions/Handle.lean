import Sessions.Call
import Sessions.Log

/-!
# Sessions.Handle

A handle stands for one session towards a client and follows it through replacements. It holds no
record: every operation is a call on a manager. When the manager answers that the session was
replaced, the handle binds itself to the new id and, depending on the operation, calls again, gives
an empty answer, or is content.

* `Client` is what a handle needs of the state that it lives in: its own place there, the manager,
  the log. The manager may do anything, also use the same handle before it answers.
* `Client.reissue` calls again after a replacement, at most `Handle.patience` times in a row.
* `Client.absorb` calls once.
-/

namespace Sessions

structure Handle where
  context : Context
  id : Id
  /-- How often the handle followed its session; a 64-bit counter agrees with it below `2 ^ 64` times. -/
  replacements : Nat
  /-- Start of the bound session, once it was asked for. -/
  start : Option Timestamp
  /-- Host of the bound session, or that it has none, once it was asked for. -/
  host : Option (Option Text)
deriving DecidableEq, Repr

namespace Handle

/-- How many replacements in a row one operation follows. -/
def patience : Nat := 3

def bind (id : Id) (context : Context) : Except Fault Handle :=
  if id = [] then .error (Fault.idMalformed id)
  else .ok { context, id, replacements := 0, start := none, host := none }

def noManager : Fault := Fault.missing "manager" "Session manager cannot be null"

/-- Bound to another id. What was remembered described the old session. -/
def rebind (h : Handle) (new : Id) : Handle :=
  { h with id := new, replacements := h.replacements + 1, start := none, host := none }

/-- Remember a start that was answered for an id, if the handle is still bound to it. -/
def rememberStart (h : Handle) (id : Id) (t : Timestamp) : Handle :=
  if h.id = id then { h with start := some t } else h

/-- Remember a host that was answered for an id, if the handle is still bound to it. -/
def rememberHost (h : Handle) (id : Id) (host : Option Text) : Handle :=
  if h.id = id then { h with host := some host } else h

end Handle

/-- What a handle needs of the state that it lives in. -/
structure Client (σ : Type) where
  handle : σ → Handle
  setHandle : Handle → σ → σ
  call : (c : Call) → Id → Context → σ → Except Fault c.Result × σ
  note : Level → Text → σ → σ

namespace Client

variable {σ : Type} (k : Client σ)

def update (f : Handle → Handle) (s : σ) : σ := k.setHandle (f (k.handle s)) s

def follow (old new : Id) (s : σ) : σ :=
  k.update (·.rebind new) <|
    k.note .debug ("Session handle rebinding from " ++ old ++ " to " ++ new) s

/-- A call for the session that the handle is bound to now. -/
def callBound (c : Call) (s : σ) : Except Fault c.Result × σ :=
  k.call c (k.handle s).id (k.handle s).context s

/-- Call, and after a replacement call again for the new session, so many times. The answer comes
with the id that it was given for. -/
def reissue (c : Call) : (patience : Nat) → σ → Except Fault (Id × c.Result) × σ
  | n, s =>
    match k.callBound c s with
    | (.ok a, s') => (.ok ((k.handle s).id, a), s')
    | (.error (.replaced old new cause), s') =>
      match n with
      | 0 => (.error (.replaced old new cause), k.follow old new s')
      | n + 1 => reissue c n (k.follow old new s')
    | (.error f, s') => (.error f, s')

/-- Call once; after a replacement answer with the given value. -/
def absorb (c : Call) (fallback : c.Result) (s : σ) : Except Fault c.Result × σ :=
  match k.callBound c s with
  | (.error (.replaced old new _), s') => (.ok fallback, k.follow old new s')
  | r => r

def persist (c : Call) (s : σ) : Except Fault c.Result × σ :=
  let (r, s) := k.reissue c Handle.patience s
  (r.map (·.2), s)

/-- The start of the session, asked for once. -/
def getStart (s : σ) : Except Fault Timestamp × σ :=
  match (k.handle s).start with
  | some t => (.ok t, s)
  | none =>
    match k.reissue .getStart Handle.patience s with
    | (.ok (id, t), s') => (.ok t, k.update (·.rememberStart id t) s')
    | (.error f, s') => (.error f, s')

/-- The host of the session, asked for once. -/
def getHost (s : σ) : Except Fault (Option Text) × σ :=
  match (k.handle s).host with
  | some h => (.ok h, s)
  | none =>
    match k.reissue .getHost Handle.patience s with
    | (.ok (id, h), s') => (.ok h, k.update (·.rememberHost id h) s')
    | (.error f, s') => (.error f, s')

/-- The operation that a call names, through the handle. A replacement counts as touched, and it has
no attributes yet. -/
def perform : (c : Call) → σ → Except Fault c.Result × σ
  | .getStart => k.getStart
  | .getHost => k.getHost
  | .touch => k.absorb .touch ()
  | .keys => k.absorb .keys []
  | .get key => k.absorb (.get key) none
  | .set key .absent => fun s =>
    let (r, s) := k.persist (.remove key) s
    (r.map fun _ => (), s)
  | c => k.persist c

/-- Whether the session is valid. That it cannot be used is no fault here. -/
def isValid (s : σ) : Except Fault Bool × σ :=
  match k.perform .checkValid s with
  | (.ok _, s') => (.ok true, s')
  | (.error f, s') =>
    if f.isInvalidSession then
      (.ok false,
        k.note .trace ("Session handle " ++ (k.handle s').id ++ " is not valid: " ++ f.message) s')
    else (.error f, s')

end Client
end Sessions
