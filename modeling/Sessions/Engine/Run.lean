import Sessions.Engine

/-!
# Sessions.Engine.Run

How an engine answers. The manager's questions are answered from the engine's parts; commands run
the manager's programs on these answers. Listeners and hooks carry out commands in the middle of a
program, and the program goes on with whatever state they leave.

* `Engine.answer` answers a question, `Engine.runOp` runs a program of the manager.
* `Engine.performWith` carries a command out, given how commands inside callbacks are carried out.
* `Engine.perform` ties the knot: callbacks nest up to a depth, and at depth zero they do nothing.
* `Engine.step` is a command from outside, with room for any nesting that occurs.
-/

namespace Sessions
namespace Engine

/-- How commands inside callbacks are carried out. -/
abbrev Act := Command → Engine → Except Fault Reply × Engine

/-! ## Hooks and listeners -/

def actAll (act : Act) : List Command → Engine → Except Fault Unit × Engine
  | [], e => (.ok (), e)
  | c :: cs, e =>
    match act c e with
    | (.ok _, e) => actAll act cs e
    | (.error f, e) => (.error f, e)

/-- Carry out a reaction, which may end in a failure of its own. -/
def react (act : Act) (r : Reaction Command) (e : Engine) : Except Fault Unit × Engine :=
  match actAll act r.actions e with
  | (.error f, e) => (.error f, e)
  | (.ok _, e) =>
    match r.failure with
    | none => (.ok (), e)
    | some words => (.error (.foreign words), e)

def runHooks (act : Act) : List Hook → Engine → Except Fault Unit × Engine
  | [], e => (.ok (), e)
  | h :: hs, e =>
    match react act h.reaction e with
    | (.ok _, e) => runHooks act hs e
    | (.error f, e) => (.error f, e)

def fire (act : Act) (p : Point) (e : Engine) : Except Fault Unit × Engine :=
  runHooks act (e.disturbance.due p) { e with disturbance := e.disturbance.pass p }

/-- How an engine looks to an announcement. -/
def stage (act : Act) : Stage Engine Command Reply where
  registry := Engine.registry
  setRegistry g e := { e with registry := g }
  note level message e := e.note level message
  act r c e :=
    let (o, e') := act c { e with subject := some r.id }
    (o, { e' with subject := e.subject })

def announce (act : Act) (ev : Event) (r : Record) (e : Engine) : Engine :=
  (stage act).announce ev r (e.enter (.told ev r))

/-! ## Answers to the manager -/

/-- A use of the store behind the hooks that are due with it. -/
def behindHooks {α : Type} (act : Act) (p : Point) (use : Engine → Except Fault α × Engine)
    (e : Engine) : Except Fault α × Engine :=
  match fire act p e with
  | (.error f, e) => (.error f, e)
  | (.ok _, e) => use e

/-- List the live sessions; the hooks come behind. -/
def listThenHooks (act : Act) (e : Engine) : Except Fault (List Record) × Engine :=
  match e.listNow with
  | .error f => (.error f, e)
  | .ok rs =>
    match fire act .list e with
    | (.error f, e) => (.error f, e)
    | (.ok _, e) => (.ok rs, e)

def ensureBackground (e : Engine) : Except Fault Unit × Engine :=
  let (r, b, lines) := e.background.ensure
  (r, e.withBackground b lines)

/-- Answer a question of the manager. Nobody disturbs a program from outside, so its lock is free
whenever it asks for it. -/
def answer (act : Act) : (q : Manager.Question) → Engine → Manager.Reply q × Engine
  | .clock, e => (e.clock.now, { e with clock := e.clock.read.2 })
  | .mint, e => e.draw
  | .allow host, e => (e.admission.check host, e)
  | .read id, e => behindHooks act .read (fun e => (.ok (e.store.read id), e)) e
  | .create r, e => behindHooks act .create (·.createNow r) e
  | .update r, e => behindHooks act .update (·.updateNow r) e
  | .live, e => listThenHooks act e
  | .count c, e => ((), { e with stats := e.stats.bump c })
  | .log level message, e => ((), e.note level message)
  | .announce ev r, e => ((), announce act ev r e)
  | .lock, e => ((), e)
  | .unlock, e => ((), e)
  | .ensureSweeping, e => e.ensureBackground
  | .autoCreate, e => (e.autoCreate, e)
  | .timeout, e => (e.timeout, e)

def runOp {α : Type} (act : Act) (p : Manager.Op α) (e : Engine) : Except Fault α × Engine :=
  p.run (answer act) e

/-! ## Handles -/

def hold (e : Engine) (name : Text) (h : Handle) : Engine :=
  { e with handles := (name, h) :: e.handles.filter (·.1 ≠ name) }

def client (act : Act) (name : Text) (bound : Handle) : Client Engine where
  handle e := (e.handles.lookup name).getD bound
  setHandle h e := e.hold name h
  call c id ctx := runOp act (Manager.serve id ctx c)
  note level message e := e.note level message

def performHandle (act : Act) (name : Text) (h : Handle) (c : HandleCommand) (e : Engine) :
    Except Fault Reply × Engine :=
  match c with
  | .id => (.ok (.answer (.id h.id)), e)
  | .replacements => (.ok (.answer (.count h.replacements)), e)
  | .call c =>
    let (r, e) := (client act name h).perform c e
    (r.map fun a => .answer (c.answer a), e)
  | .isValid =>
    let (r, e) := (client act name h).isValid e
    (r.map fun b => .answer (.flag b), e)

/-! ## Commands -/

def reply (a : Answer) (e : Engine) : Except Fault Reply × Engine := (.ok (.answer a), e)

def runReply {α : Type} (act : Act) (p : Manager.Op α) (wrap : α → Reply) (e : Engine) :
    Except Fault Reply × Engine :=
  let (r, e) := runOp act p e
  (r.map wrap, e)

/-- Let the background sweep once, at the shortest interval, then switch it off. How often it swept
is not known from then on. -/
def awaitSweep (act : Act) (e : Engine) : Except Fault Reply × Engine :=
  match e.background.setInterval 1 with
  | .error f => (.error f, e)
  | .ok b =>
    let e := (runOp act Manager.sweep { e with background := b }).2
    let (b, lines) := e.background.want false
    reply .done ({ e with stats := { e.stats with sweeps := none } }.withBackground b lines)

/-- Carry a command out, given how commands inside callbacks are carried out. -/
def performWith (act : Act) : Command → Engine → Except Fault Reply × Engine
  | .start host, e => runReply act (Manager.start host) (fun i => .answer (.id i)) e
  | .call c r ctx, e =>
    runReply act (Manager.serve (e.resolve r) ctx c) (fun a => .answer (c.answer a)) e
  | .isValid r ctx, e =>
    runReply act (Manager.isValid (e.resolve r) ctx) (fun b => .answer (.flag b)) e
  | .validate r ctx, e =>
    runReply act (Manager.validateSession (e.resolve r) ctx) (fun _ => .answer .done) e
  | .getSession r ctx, e =>
    runReply act (Manager.getSession (e.resolve r) ctx) (fun s => .record (some s)) e
  | .lookup r ctx, e => runReply act (Manager.lookup (e.resolve r) ctx) .finding e
  | .sweep, e => runReply act Manager.sweep (fun n => .answer (.count n)) e
  | .awaitSweep, e => awaitSweep act e
  | .advanceClock d, e => reply .done { e with clock := e.clock.advance d }
  | .setClock t, e => reply .done { e with clock := e.clock.setTo t }
  | .tickClock step, e => reply .done { e with clock := e.clock.tick step }
  | .destroy, e =>
    let (b, lines) := e.background.destroy
    reply .done (e.withBackground b lines)
  | .isDestroyed, e => reply (.flag e.background.destroyed) e
  | .setTimeout t, e => reply .done { e with timeout := t }
  | .getTimeout, e => reply (.span e.timeout) e
  | .setInterval t, e =>
    match e.background.setInterval t with
    | .error f => (.error f, e)
    | .ok b => reply .done { e with background := b }
  | .getInterval, e => reply (.span e.background.interval) e
  | .setAutoCreate on, e => reply (.flag on) { e with autoCreate := on }
  | .setSweeping on, e =>
    let (b, lines) := e.background.want on
    reply (.flag b.wanted) (e.withBackground b lines)
  | .isActive, e => reply (.flag e.background.active) e
  | .stats, e => (.ok (.stats e.stats), e)
  | .setTimer name kind, e =>
    match e.background.install name kind with
    | .error f => (.error f, e)
    | .ok (b, lines) => reply .done (e.withBackground b lines)
  | .timer name, e => (.ok (.timer (e.background.find? name)), e)
  | .switchTimer name on, e =>
    let (r, b, lines) := e.background.switch name on
    (r.map fun _ => .answer .done, e.withBackground b lines)
  | .listen l, e =>
    let (i, g) := e.registry.introduce l
    match g.add (some i) with
    | .error f => (.error f, e)
    | .ok g => reply .done { e with registry := g }
  | .listenNobody, e =>
    match e.registry.add none with
    | .error f => (.error f, e)
    | .ok g => reply .done { e with registry := g }
  | .unlisten name, e =>
    let (there, g) := e.registry.remove (e.registry.named? name)
    reply (.flag there) { e with registry := g }
  | .store c, e => e.performStore c
  | .poison r, e =>
    reply .done { e with disturbance := { e.disturbance with
      poisoned := e.resolve r :: e.disturbance.poisoned } }
  | .cure, e => reply .done { e with disturbance := { e.disturbance with poisoned := [] } }
  | .failCreate on, e =>
    reply .done { e with disturbance := { e.disturbance with createFails := on } }
  | .failList on, e => reply .done { e with disturbance := { e.disturbance with listFails := on } }
  | .hook point n reaction, e =>
    reply .done { e with disturbance := { e.disturbance with
      hooks := e.disturbance.hooks ++ [⟨point, n, reaction⟩] } }
  | .setFilter filter, e => reply .done { e with admission := { e.admission with filter } }
  | .setRequireHost on, e =>
    reply .done { e with admission := { e.admission with requireHost := on } }
  | .bind name r ctx, e =>
    match Handle.bind (e.resolve r) ctx with
    | .error f => (.error f, e)
    | .ok h => reply .done (e.hold name h)
  | .startHandle name host ctx, e =>
    match runOp act (Manager.start (host <|> ctx.host)) e with
    | (.error f, e) => (.error f, e)
    | (.ok id, e) =>
      match Handle.bind id ctx with
      | .error f => (.error f, e)
      | .ok h => reply (.id id) (e.hold name h)
  | .handle name c, e =>
    match e.handles.lookup name with
    | none => (.error (Fault.missing "handle" "There is no handle of this name"), e)
    | some h => performHandle act name h c e

/-- Carry a command out, with callbacks nested up to a depth. -/
def perform : (depth : Nat) → Act
  | 0, c, e => performWith (fun _ e => (.ok (.answer .done), e)) c e
  | n + 1, c, e => performWith (perform n) c e

def step (c : Command) (e : Engine) : Except Fault Reply × Engine := perform nestingLimit c e

end Engine
end Sessions
