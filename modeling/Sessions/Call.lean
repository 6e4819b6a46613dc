import Sessions.Record

/-!
# Sessions.Call

The operations on a session by its id, as data. A manager of sessions answers them, a handle passes
them on, and both may be given any other party to talk to, so the operations and the types of their
answers stand here by themselves.
-/

namespace Sessions

/-- What a request brings along: the host it comes from. A replacement is started for this host
where the host of the replaced session is not known. -/
structure Context where
  host : Option Text
deriving DecidableEq, Repr

inductive Call where
  | getStart
  | getLastAccess
  | getHost
  | getTimeout
  | setTimeout (timeout : Millis)
  | touch
  | stop
  | keys
  | get (key : Text)
  | set (key : Text) (value : Value)
  | remove (key : Text)
  | checkValid
deriving DecidableEq, Repr

/-- An answer of any operation, told apart by its kind. -/
inductive Answer where
  | done
  | time (t : Timestamp)
  | host (h : Option Text)
  | span (t : Millis)
  | keys (ks : List Text)
  | value (v : Option Value)
  | flag (b : Bool)
  | id (i : Id)
  | count (n : Nat)
deriving DecidableEq, Repr

namespace Call

def name : Call → Text
  | .getStart => "get_start"
  | .getLastAccess => "get_last"
  | .getHost => "get_host"
  | .getTimeout => "get_timeout"
  | .setTimeout _ => "set_timeout"
  | .touch => "touch"
  | .stop => "stop"
  | .keys => "keys"
  | .get _ => "get"
  | .set _ _ => "set"
  | .remove _ => "remove"
  | .checkValid => "check_valid"

@[reducible] def Result : Call → Type
  | .getStart | .getLastAccess => Timestamp
  | .getHost => Option Text
  | .getTimeout => Millis
  | .setTimeout _ | .touch | .stop | .set _ _ | .checkValid => Unit
  | .keys => List Text
  | .get _ | .remove _ => Option Value

def answer : (c : Call) → c.Result → Answer
  | .getStart, t | .getLastAccess, t => .time t
  | .getHost, h => .host h
  | .getTimeout, t => .span t
  | .setTimeout _, _ | .touch, _ | .stop, _ | .set _ _, _ | .checkValid, _ => .done
  | .keys, ks => .keys ks
  | .get _, v | .remove _, v => .value v

end Call
end Sessions
