import Sessions.Registry

/-!
# Sessions.Registry.Scene

A registry with one session to announce. The listeners act on the scene itself, so they may add and
remove listeners, change the session and announce again from inside a callback.

`Scene.perform` carries a command out. Its first argument says how deep callbacks may nest; at depth
zero the actions of a listener are not carried out.
-/

namespace Sessions

namespace Scene

/-- What can be asked of a scene. Listeners go by name; no name stands for no listener. -/
inductive Command where
  | define (l : Listener Command)
  | add (name : Option Text)
  | remove (name : Option Text)
  | set (names : List (Option Text))
  | size
  | list
  | clear
  | announce (e : Event)
  | session (op : Record.Op)

inductive Reply where
  | done
  | flag (b : Bool)
  | count (n : Nat)
  | names (ns : List Text)
  | session (a : Record.Answer)

end Scene

structure Scene where
  registry : Registry Scene.Command Scene.Reply
  session : Record
  log : Log

namespace Scene

/-- How a scene looks to an announcement, given how actions are carried out. -/
def stage (act : Command → Scene → Except Fault Reply × Scene) : Stage Scene Command Reply where
  registry := Scene.registry
  setRegistry g s := { s with registry := g }
  note level message s := { s with log := s.log.write level message }
  act _ := act

def find (s : Scene) (name : Option Text) : Option ListenerId := name.bind s.registry.named?

/-- Carry a command out, given how the actions of listeners are carried out. -/
def performWith (act : Command → Scene → Except Fault Reply × Scene) :
    Command → Scene → Except Fault Reply × Scene
  | .define l, s => (.ok .done, { s with registry := (s.registry.introduce l).2 })
  | .add name, s =>
    match s.registry.add (s.find name) with
    | .ok g => (.ok .done, { s with registry := g })
    | .error f => (.error f, s)
  | .remove name, s =>
    let (there, g) := s.registry.remove (s.find name)
    (.ok (.flag there), { s with registry := g })
  | .set names, s => (.ok .done, { s with registry := s.registry.set (names.map s.find) })
  | .size, s => (.ok (.count s.registry.size), s)
  | .list, s => (.ok (.names s.registry.names), s)
  | .clear, s => (.ok .done, { s with registry := s.registry.clear })
  | .announce e, s => (.ok .done, (stage act).announce e s.session s)
  | .session op, s =>
    let (a, r) := s.session.perform op
    (a.map .session, { s with session := r })

/-- Carry a command out, with callbacks nested up to a depth. -/
def perform : (depth : Nat) → Command → Scene → Except Fault Reply × Scene
  | 0, c, s => performWith (fun _ s => (.ok .done, s)) c s
  | n + 1, c, s => performWith (perform n) c s

def step (c : Command) (s : Scene) : Except Fault Reply × Scene := perform nestingLimit c s

end Scene
end Sessions
