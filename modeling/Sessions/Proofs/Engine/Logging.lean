import Sessions.Engine.Run
import Sessions.Proofs.Engine.View
import Sessions.Proofs.Log.Levels

/-!
# Sessions.Proofs.Engine.Logging

The log of an engine is written and never read. Whatever an engine is asked, and whatever its listeners
and hooks ask in the middle of it, it does with any part of its log left out what it does with all of it.

* `Engine.upTo` leaves out of the log what is above a level.
* `upTo_answer`, `upTo_runOp`: questions and programs; `upTo_performWith`: commands, given that commands
  inside callbacks do not depend on what is left out.
* `ignoresLog_perform`: the same to any depth of callbacks.
-/

namespace Sessions
namespace Engine

variable {α : Type} {a : Level} {e : Engine}

def logbook : Logbook Engine where
  log := Engine.log
  setLog g e := { e with log := g }
  log_setLog _ _ := rfl
  setLog_log _ := rfl
  setLog_setLog _ _ _ := rfl

/-- The engine with a log up to a level. -/
def upTo (a : Level) (e : Engine) : Engine := logbook.upTo a e

@[simp] theorem store_upTo : (e.upTo a).store = e.store := rfl

@[simp] theorem disturbance_upTo : (e.upTo a).disturbance = e.disturbance := rfl

@[simp] theorem background_upTo : (e.upTo a).background = e.background := rfl

@[simp] theorem handles_upTo : (e.upTo a).handles = e.handles := rfl

@[simp] theorem resolve_upTo (r : Ref) : (e.upTo a).resolve r = e.resolve r := by
  cases r <;> rfl

@[simp] theorem upTo_note (level : Level) (message : Text) (e : Engine) :
    (e.note level message).upTo a = (e.upTo a).note level message := by
  simp only [note, upTo, Logbook.upTo, logbook, Log.upTo_write]

@[simp] theorem upTo_noteAll (lines : List LogLine) (e : Engine) :
    (e.noteAll lines).upTo a = (e.upTo a).noteAll lines := by
  simp only [noteAll, upTo, Logbook.upTo, logbook, Log.upTo_writeAll]

@[simp] theorem upTo_withBackground (b : Background) (lines : List LogLine) (e : Engine) :
    (e.withBackground b lines).upTo a = (e.upTo a).withBackground b lines :=
  upTo_noteAll lines { e with background := b }

/-! ## The store -/

theorem upTo_createNow (r : Record) (e : Engine) :
    Prod.map id (upTo a) (e.createNow r) = (e.upTo a).createNow r := by
  unfold createNow
  rw [disturbance_upTo, store_upTo]
  cases Disturbance.guard e.disturbance.createFails "create" with
  | error f => rfl
  | ok u =>
    cases e.store.create r with
    | error f => rfl
    | ok p => exact Prod.ext rfl (upTo_noteAll p.2 _)

theorem upTo_updateNow (r : Record) (e : Engine) :
    Prod.map id (upTo a) (e.updateNow r) = (e.upTo a).updateNow r := by
  unfold updateNow
  rw [disturbance_upTo, store_upTo]
  cases Disturbance.guard (e.disturbance.poisoned.contains r.id) "update" with
  | error f => rfl
  | ok u => cases e.store.update r <;> rfl

theorem upTo_performStore (c : StoreCommand) (e : Engine) :
    Prod.map id (upTo a) (e.performStore c) = (e.upTo a).performStore c := by
  cases c with
  | change r ops =>
    simp only [performStore, store_upTo, resolve_upTo]
    cases e.store.read (e.resolve r) with
    | none => rfl
    | some stored =>
      simp only
      cases e.store.update (stored.performAll ops).2 <;> rfl
  | put d =>
    simp only [performStore, store_upTo]
    cases d.build.bind e.store.create with
    | error f => rfl
    | ok p => exact Prod.ext rfl (upTo_noteAll p.2 _)
  | read r =>
    simp only [performStore, store_upTo, resolve_upTo]
    rfl
  | remove r =>
    simp only [performStore, store_upTo, resolve_upTo]
    rfl
  | _ => rfl

/-! ## Callbacks -/

section

variable {act : Act} (hact : logbook.Ignores act)
include hact

theorem upTo_actAll (cs : List Command) (e : Engine) :
    Prod.map id (upTo a) (actAll act cs e) = actAll act cs (e.upTo a) := by
  induction cs generalizing e with
  | nil => rfl
  | cons c cs ih =>
    unfold actAll
    rw [← show _ = act c (e.upTo a) from hact a c e]
    obtain ⟨o, e'⟩ := act c e
    cases o with
    | ok r => exact ih e'
    | error f => rfl

theorem upTo_react (r : Reaction Command) (e : Engine) :
    Prod.map id (upTo a) (react act r e) = react act r (e.upTo a) := by
  unfold react
  rw [← upTo_actAll hact]
  obtain ⟨o, e'⟩ := actAll act r.actions e
  cases o with
  | error f => rfl
  | ok u => cases r.failure <;> rfl

theorem upTo_runHooks (hs : List Hook) (e : Engine) :
    Prod.map id (upTo a) (runHooks act hs e) = runHooks act hs (e.upTo a) := by
  induction hs generalizing e with
  | nil => rfl
  | cons h hs ih =>
    unfold runHooks
    rw [← upTo_react hact]
    obtain ⟨o, e'⟩ := react act h.reaction e
    cases o with
    | ok u => exact ih e'
    | error f => rfl

theorem upTo_fire (p : Point) (e : Engine) :
    Prod.map id (upTo a) (fire act p e) = fire act p (e.upTo a) :=
  upTo_runHooks hact (e.disturbance.due p) { e with disturbance := e.disturbance.pass p }

theorem upTo_behindHooks {use : Engine → Except Fault α × Engine}
    (huse : ∀ e, Prod.map id (upTo a) (use e) = use (e.upTo a)) (p : Point) (e : Engine) :
    Prod.map id (upTo a) (behindHooks act p use e) = behindHooks act p use (e.upTo a) := by
  unfold behindHooks
  rw [← upTo_fire hact]
  obtain ⟨o, e'⟩ := fire act p e
  cases o with
  | error f => rfl
  | ok u => exact huse e'

theorem upTo_listThenHooks (e : Engine) :
    Prod.map id (upTo a) (listThenHooks act e) = listThenHooks act (e.upTo a) := by
  unfold listThenHooks
  rw [show (e.upTo a).listNow = e.listNow from rfl]
  cases e.listNow with
  | error f => rfl
  | ok rs =>
    simp only
    rw [← upTo_fire hact]
    obtain ⟨o, e'⟩ := fire act .list e
    cases o <;> rfl

theorem upTo_stage : (stage act).View (upTo a) (stage act) where
  registry _ := rfl
  setRegistry _ _ := rfl
  note := upTo_note
  act r c e := by
    have hcommand := hact a c { e with subject := some r.id }
    unfold stage
    simp only
    rw [← show _ = act c { e.upTo a with subject := some r.id } from hcommand]
    rfl

theorem upTo_announce (ev : Event) (r : Record) (e : Engine) :
    (announce act ev r e).upTo a = announce act ev r (e.upTo a) :=
  (upTo_stage hact).announce ev r (e.enter (.told ev r))

/-! ## Programs -/

theorem upTo_answer (q : Manager.Question) (e : Engine) :
    Prod.map id (upTo a) (answer act q e) = answer act q (e.upTo a) := by
  cases q with
  | read i => exact upTo_behindHooks hact (fun _ => rfl) .read e
  | create r => exact upTo_behindHooks hact (upTo_createNow r) .create e
  | update r => exact upTo_behindHooks hact (upTo_updateNow r) .update e
  | live => exact upTo_listThenHooks hact e
  | announce ev r => exact Prod.ext rfl (upTo_announce hact ev r e)
  | log level message => exact Prod.ext rfl (upTo_note level message e)
  | ensureSweeping => exact Prod.ext rfl (upTo_withBackground _ _ e)
  | _ => rfl

theorem upTo_runOp (p : Manager.Op α) (e : Engine) :
    Prod.map id (upTo a) (runOp act p e) = runOp act p (e.upTo a) :=
  Program.view_run (upTo_answer hact) p e

theorem upTo_runReply (p : Manager.Op α) (wrap : α → Reply) (e : Engine) :
    Prod.map id (upTo a) (runReply act p wrap e) = runReply act p wrap (e.upTo a) := by
  unfold runReply
  rw [← upTo_runOp hact]
  rfl

theorem upTo_client (name : Text) (bound : Handle) :
    (client act name bound).View (upTo a) (client act name bound) where
  handle _ := rfl
  setHandle _ _ := rfl
  note := upTo_note
  call c i ctx := upTo_runOp hact (Manager.serve i ctx c)

/-! ## Commands -/

theorem upTo_performHandle (name : Text) (h : Handle) (c : HandleCommand) (e : Engine) :
    Prod.map id (upTo a) (performHandle act name h c e) = performHandle act name h c (e.upTo a) := by
  cases c with
  | call c =>
    unfold performHandle
    simp only
    rw [← (upTo_client hact name h).perform]
    rfl
  | isValid =>
    unfold performHandle
    simp only
    rw [← (upTo_client hact name h).isValid]
    rfl
  | _ => rfl

theorem upTo_awaitSweep (e : Engine) :
    Prod.map id (upTo a) (awaitSweep act e) = awaitSweep act (e.upTo a) := by
  unfold awaitSweep
  rw [background_upTo]
  cases e.background.setInterval 1 with
  | error f => rfl
  | ok b =>
    have hswept := upTo_runOp (a := a) hact Manager.sweep { e with background := b }
    simp only
    rw [← show _ = runOp act Manager.sweep { e.upTo a with background := b } from hswept]
    exact Prod.ext rfl (upTo_withBackground _ _ _)

theorem upTo_startHandle (name : Text) (host : Option Text) (ctx : Context) (e : Engine) :
    Prod.map id (upTo a) (performWith act (.startHandle name host ctx) e) =
      performWith act (.startHandle name host ctx) (e.upTo a) := by
  unfold performWith
  simp only
  rw [← upTo_runOp hact]
  obtain ⟨o, e'⟩ := runOp act (Manager.start (host <|> ctx.host)) e
  cases o with
  | error f => rfl
  | ok i =>
    simp only [Prod.map, id]
    cases Handle.bind i ctx <;> rfl

theorem upTo_performWith (c : Command) (e : Engine) :
    Prod.map id (upTo a) (performWith act c e) = performWith act c (e.upTo a) := by
  cases c with
  | start host => exact upTo_runReply hact (Manager.start host) _ e
  | call c r ctx =>
    simp only [performWith, resolve_upTo]
    exact upTo_runReply hact _ _ e
  | isValid r ctx =>
    simp only [performWith, resolve_upTo]
    exact upTo_runReply hact _ _ e
  | validate r ctx =>
    simp only [performWith, resolve_upTo]
    exact upTo_runReply hact _ _ e
  | getSession r ctx =>
    simp only [performWith, resolve_upTo]
    exact upTo_runReply hact _ _ e
  | lookup r ctx =>
    simp only [performWith, resolve_upTo]
    exact upTo_runReply hact _ _ e
  | sweep => exact upTo_runReply hact Manager.sweep _ e
  | awaitSweep => exact upTo_awaitSweep hact e
  | startHandle name host ctx => exact upTo_startHandle hact name host ctx e
  | store c => exact upTo_performStore c e
  | destroy => exact Prod.ext rfl (upTo_withBackground _ _ e)
  | setSweeping on => exact Prod.ext rfl (upTo_withBackground _ _ e)
  | switchTimer name on => exact Prod.ext rfl (upTo_withBackground _ _ e)
  | setTimer name kind =>
    simp only [performWith, background_upTo]
    cases e.background.install name kind with
    | error f => rfl
    | ok p => exact Prod.ext rfl (upTo_withBackground p.1 p.2 e)
  | setInterval t =>
    simp only [performWith, background_upTo]
    cases e.background.setInterval t <;> rfl
  | poison r =>
    simp only [performWith, resolve_upTo]
    rfl
  | bind name r ctx =>
    simp only [performWith, resolve_upTo]
    cases Handle.bind (e.resolve r) ctx <;> rfl
  | handle name c =>
    simp only [performWith, handles_upTo]
    cases e.handles.lookup name with
    | none => rfl
    | some h => exact upTo_performHandle hact name h c e
  | _ => rfl

end

theorem upTo_new {b : Level} (h : a.rank ≤ b.rank) (s : Settings) (clock : Clock) (source : IdSource) :
    (new s clock source b).map (logbook.upTo a) = new s clock source a := by
  unfold new
  cases s.check with
  | error f => rfl
  | ok u => exact congrArg (fun g => Except.ok { blank s clock source a with log := g }) (Log.upTo_new h)

/-- What listeners and hooks ask for, however deep, does not depend on the log. -/
theorem ignoresLog_perform (n : Nat) : logbook.Ignores (perform n) := by
  induction n with
  | zero => exact fun a c e => upTo_performWith (fun _ _ _ => rfl) c e
  | succ n ih => exact fun a c e => upTo_performWith ih c e

end Engine
end Sessions
