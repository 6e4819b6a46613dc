import Sessions.Proofs.Engine.Conduct
import Sessions.Proofs.Engine.View

/-!
# Sessions.Proofs.Engine.Chronicle

An engine beside a list of the operations by id that it carries out: those that are asked for from outside,
those that handles pass on, and those that listeners ask for in the middle of others, however deep. An
operation is written down when it is done, behind those that it led to.

* `Chronicle.perform` carries a command out and writes down what it comes to.
* `Chronicle.engine_announce`, `Chronicle.engine_after`: that something is written down changes nothing.

What hooks in the store ask for is not written down; a chronicle is kept of engines without them.
-/

namespace Sessions

/-- An operation by id, with what was answered. -/
structure Operation where
  id : Id
  call : Call
  result : Except Fault call.Result

structure Chronicle where
  engine : Engine
  operations : List Operation

namespace Chronicle

open Engine (Command Reply HandleCommand Entry)

variable {α : Type}

/-- How commands inside callbacks are carried out. -/
abbrev Act := Command → Chronicle → Except Fault Reply × Chronicle

/-- The same beside nothing. -/
def Act.bare (act : Act) : Engine.Act := fun c e => Prod.map id engine (act c ⟨e, []⟩)

def set (s : Chronicle) (f : Engine → Engine) : Chronicle := { s with engine := f s.engine }

/-- What asks for no operations by id. -/
def within (f : Engine → α × Engine) (s : Chronicle) : α × Chronicle :=
  ((f s.engine).1, { s with engine := (f s.engine).2 })

def stage (act : Act) : Stage Chronicle Command Reply where
  registry s := s.engine.registry
  setRegistry g s := s.set fun e => { e with registry := g }
  note level message s := s.set (·.note level message)
  act r c s :=
    let (o, s') := act c (s.set fun e => { e with subject := some r.id })
    (o, s'.set fun e => { e with subject := s.engine.subject })

def announce (act : Act) (ev : Event) (r : Record) (s : Chronicle) : Chronicle :=
  (stage act).announce ev r (s.set (·.enter (.told ev r)))

def answer (act : Act) : (q : Manager.Question) → Chronicle → Manager.Reply q × Chronicle
  | .announce ev r, s => ((), announce act ev r s)
  | q, s => within (Engine.answer act.bare q) s

def runOp (act : Act) (p : Manager.Op α) (s : Chronicle) : Except Fault α × Chronicle :=
  p.run (answer act) s

/-- Carry out an operation by id, and write it down. -/
def serve (act : Act) (id : Id) (ctx : Context) (c : Call) (s : Chronicle) :
    Except Fault c.Result × Chronicle :=
  let (r, s) := runOp act (Manager.serve id ctx c) s
  (r, { s with operations := s.operations ++ [⟨id, c, r⟩] })

def client (act : Act) (name : Text) (bound : Handle) : Client Chronicle where
  handle s := (s.engine.handles.lookup name).getD bound
  setHandle h s := s.set (·.hold name h)
  call c id ctx := serve act id ctx c
  note level message s := s.set (·.note level message)

def performHandle (act : Act) (name : Text) (h : Handle) (c : HandleCommand) (s : Chronicle) :
    Except Fault Reply × Chronicle :=
  match c with
  | .call c =>
    let (r, s) := (client act name h).perform c s
    (r.map fun a => .answer (c.answer a), s)
  | .isValid =>
    let (r, s) := (client act name h).isValid s
    (r.map fun b => .answer (.flag b), s)
  | c => within (Engine.performHandle act.bare name h c) s

def runReply (act : Act) (p : Manager.Op α) (wrap : α → Reply) (s : Chronicle) :
    Except Fault Reply × Chronicle :=
  let (r, s) := runOp act p s
  (r.map wrap, s)

def awaitSweep (act : Act) (s : Chronicle) : Except Fault Reply × Chronicle :=
  match s.engine.background.setInterval 1 with
  | .error f => (.error f, s)
  | .ok b =>
    let s := (runOp act Manager.sweep (s.set fun e => { e with background := b })).2
    let (b, lines) := s.engine.background.want false
    (.ok (.answer .done), s.set fun e =>
      { e with stats := { e.stats with sweeps := none } }.withBackground b lines)

/-- Carry a command out. What runs no program of the manager is left to the engine. -/
def performWith (act : Act) : Command → Chronicle → Except Fault Reply × Chronicle
  | .start host, s => runReply act (Manager.start host) (fun i => .answer (.id i)) s
  | .call c r ctx, s =>
    let (a, s) := serve act (s.engine.resolve r) ctx c s
    (a.map fun a => .answer (c.answer a), s)
  | .isValid r ctx, s =>
    runReply act (Manager.isValid (s.engine.resolve r) ctx) (fun b => .answer (.flag b)) s
  | .validate r ctx, s =>
    runReply act (Manager.validateSession (s.engine.resolve r) ctx) (fun _ => .answer .done) s
  | .getSession r ctx, s =>
    runReply act (Manager.getSession (s.engine.resolve r) ctx) (fun r => .record (some r)) s
  | .lookup r ctx, s => runReply act (Manager.lookup (s.engine.resolve r) ctx) .finding s
  | .sweep, s => runReply act Manager.sweep (fun n => .answer (.count n)) s
  | .awaitSweep, s => awaitSweep act s
  | .startHandle name host ctx, s =>
    match runOp act (Manager.start (host <|> ctx.host)) s with
    | (.error f, s) => (.error f, s)
    | (.ok id, s) =>
      match Handle.bind id ctx with
      | .error f => (.error f, s)
      | .ok h => (.ok (.answer (.id id)), s.set (·.hold name h))
  | .handle name c, s =>
    match s.engine.handles.lookup name with
    | none => (.error (Fault.missing "handle" "There is no handle of this name"), s)
    | some h => performHandle act name h c s
  | c, s => within (Engine.performWith act.bare c) s

/-- Carry a command out, with callbacks nested up to a depth. -/
def perform : (depth : Nat) → Act
  | 0, c, s => performWith (fun _ s => (.ok (.answer .done), s)) c s
  | n + 1, c, s => performWith (perform n) c s

/-- Commands from outside, one after the other. -/
def after (depth : Nat) (cs : List Command) (s : Chronicle) : Chronicle :=
  cs.foldl (fun s c => (perform depth c s).2) s

/-! ## What is written down changes nothing -/

/-- Commands inside callbacks do not depend on what is written down. -/
def Act.Blind (act : Act) : Prop :=
  ∀ c s, Prod.map id engine (act c s) = act.bare c s.engine

section

variable {act : Act} (hact : act.Blind)
include hact

theorem view_stage : (stage act).View engine (Engine.stage act.bare) where
  registry _ := rfl
  setRegistry _ _ := rfl
  note _ _ _ := rfl
  act r c s := by
    have hcommand := hact c (s.set fun e => { e with subject := some r.id })
    change _ = (Engine.stage act.bare).act r c s.engine
    unfold Engine.stage
    simp only
    rw [← show _ = act.bare c { s.engine with subject := some r.id } from hcommand]
    rfl

theorem engine_announce (ev : Event) (r : Record) (s : Chronicle) :
    (announce act ev r s).engine = Engine.announce act.bare ev r s.engine :=
  (view_stage hact).announce ev r _

theorem view_answer (q : Manager.Question) (s : Chronicle) :
    Prod.map id engine (answer act q s) = Engine.answer act.bare q s.engine := by
  cases q with
  | announce ev r => exact Prod.ext rfl (engine_announce hact ev r s)
  | _ => rfl

theorem view_runOp (p : Manager.Op α) (s : Chronicle) :
    Prod.map id engine (runOp act p s) = Engine.runOp act.bare p s.engine :=
  Program.view_run (view_answer hact) p s

theorem view_serve (i : Id) (ctx : Context) (c : Call) (s : Chronicle) :
    Prod.map id engine (serve act i ctx c s) =
      Engine.runOp act.bare (Manager.serve i ctx c) s.engine :=
  view_runOp hact (Manager.serve i ctx c) s

theorem view_runReply (p : Manager.Op α) (wrap : α → Reply) (s : Chronicle) :
    Prod.map id engine (runReply act p wrap s) = Engine.runReply act.bare p wrap s.engine := by
  rw [Engine.runReply, ← view_runOp hact]
  rfl

theorem view_client (name : Text) (bound : Handle) :
    (client act name bound).View engine (Engine.client act.bare name bound) where
  handle _ := rfl
  setHandle _ _ := rfl
  note _ _ _ := rfl
  call c i ctx s := view_serve hact i ctx c s

theorem view_performHandle (name : Text) (h : Handle) (c : HandleCommand) (s : Chronicle) :
    Prod.map id engine (performHandle act name h c s) =
      Engine.performHandle act.bare name h c s.engine := by
  cases c with
  | call c =>
    have hperform := (view_client hact name h).perform c s
    unfold Engine.performHandle
    simp only
    rw [← hperform]
    rfl
  | isValid =>
    have hvalid := (view_client hact name h).isValid s
    unfold Engine.performHandle
    simp only
    rw [← hvalid]
    rfl
  | _ => rfl

theorem view_awaitSweep (s : Chronicle) :
    Prod.map id engine (awaitSweep act s) = Engine.awaitSweep act.bare s.engine := by
  unfold awaitSweep Engine.awaitSweep
  cases s.engine.background.setInterval 1 with
  | error f => rfl
  | ok b =>
    have hswept := view_runOp hact Manager.sweep (s.set fun e => { e with background := b })
    simp only
    rw [← show _ = Engine.runOp act.bare Manager.sweep { s.engine with background := b } from hswept]
    rfl

theorem view_performWith (c : Command) (s : Chronicle) :
    Prod.map id engine (performWith act c s) = Engine.performWith act.bare c s.engine := by
  cases c with
  | start host => exact view_runReply hact (Manager.start host) _ s
  | call c r ctx =>
    have hserve := view_serve hact (s.engine.resolve r) ctx c s
    unfold Engine.performWith Engine.runReply
    simp only
    rw [← hserve]
    rfl
  | isValid r ctx => exact view_runReply hact _ _ s
  | validate r ctx => exact view_runReply hact _ _ s
  | getSession r ctx => exact view_runReply hact _ _ s
  | lookup r ctx => exact view_runReply hact _ _ s
  | sweep => exact view_runReply hact Manager.sweep _ s
  | awaitSweep => exact view_awaitSweep hact s
  | startHandle name host ctx =>
    have hstart := view_runOp hact (Manager.start (host <|> ctx.host)) s
    unfold performWith Engine.performWith
    simp only
    rw [← hstart]
    obtain ⟨o, s'⟩ := runOp act (Manager.start (host <|> ctx.host)) s
    cases o with
    | error f => rfl
    | ok i => cases hbind : Handle.bind i ctx <;> simp [hbind, set, Engine.reply]
  | handle name c =>
    unfold performWith Engine.performWith
    simp only
    cases s.engine.handles.lookup name with
    | none => rfl
    | some h => exact view_performHandle hact name h c s
  | _ => rfl

end

/-- A command does not depend on what is written down, and does to the engine what it always does. -/
theorem view_perform (n : Nat) (c : Command) (s : Chronicle) :
    Prod.map id engine (perform n c s) = Engine.perform n c s.engine := by
  induction n generalizing c s with
  | zero => exact view_performWith (fun _ _ => rfl) c s
  | succ n ih =>
    have hbare : (perform n).bare = Engine.perform n := funext fun c => funext fun e => ih c ⟨e, []⟩
    have hblind : (perform n).Blind := fun c s => by rw [hbare, ih]
    rw [perform, Engine.perform, view_performWith hblind, hbare]

theorem blind_perform (n : Nat) : (perform n).Blind := fun c s =>
  (view_perform n c s).trans (view_perform n c ⟨s.engine, []⟩).symm

theorem engine_after (n : Nat) (cs : List Command) (s : Chronicle) :
    (after n cs s).engine = Engine.after n cs s.engine := by
  induction cs generalizing s with
  | nil => rfl
  | cons c cs ih =>
    have hfirst : (perform n c s).2.engine = (Engine.perform n c s.engine).2 :=
      congrArg Prod.snd (view_perform n c s)
    exact (ih _).trans (congrArg (Engine.after n cs) hfirst)

end Chronicle
end Sessions
