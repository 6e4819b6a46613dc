import Sessions.Handle.Rehearsal
import Sessions.Log.Logger
import Sessions.Proofs.Engine.Logging
import Sessions.Registry.Scene
import Sessions.Store.Desk
import Sessions.Sweeper.Owner

/-!
# Sessions.Proofs.Log.Influence

The level of a log decides what is logged and nothing else. An engine, a store with its files, a
registry, a handle and a sweeper answer the same at every level and come to the same state; what a lower
level logs is what a higher one logs, without the lines above the lower level.

* `Desk.ignoresLog_perform`, `Scene.ignoresLog_perform`, `Rehearsal.ignoresLog_perform` and
  `SweeperOwner.ignoresLog_perform`: one command.
* `Logbook.SoftenedFrom` compares two beginnings and all that is asked from there.
* `levels_have_no_influence` puts everything together.
-/

namespace Sessions

variable {a b : Level}

/-! ## Stores -/

namespace Desk

def logbook : Logbook Desk where
  log := Desk.log
  setLog g d := { d with log := g }
  log_setLog _ _ := rfl
  setLog_log _ := rfl
  setLog_setLog _ _ _ := rfl

theorem upTo_noteAll (lines : List LogLine) (d : Desk) :
    logbook.upTo a (d.noteAll lines) = (logbook.upTo a d).noteAll lines := by
  simp only [noteAll, Logbook.upTo, logbook, Log.upTo_writeAll]

theorem find_upTo (d : Desk) (source : Source) : (logbook.upTo a d).find source = d.find source := by
  cases source <;> rfl

theorem upTo_settle (d : Desk) (o : Except Fault Desk) :
    Prod.map id (logbook.upTo a) (d.settle o) =
      (logbook.upTo a d).settle (o.map (logbook.upTo a)) := by
  cases o <;> rfl

theorem upTo_create (d : Desk) (source : Source) :
    (d.create source).map (logbook.upTo a) = (logbook.upTo a d).create source := by
  unfold create
  rw [find_upTo, show (logbook.upTo a d).store = d.store from rfl]
  cases d.find source with
  | error f => rfl
  | ok r =>
    simp only [bind, Except.bind]
    cases d.store.create r with
    | error f => rfl
    | ok p => exact congrArg Except.ok (upTo_noteAll p.2 { d with store := p.1 })

theorem upTo_update (d : Desk) (source : Source) :
    (d.update source).map (logbook.upTo a) = (logbook.upTo a d).update source := by
  unfold update
  rw [find_upTo, show (logbook.upTo a d).store = d.store from rfl]
  cases d.find source with
  | error f => rfl
  | ok r =>
    simp only [bind, Except.bind]
    cases d.store.update r <;> rfl

theorem upTo_save (d : Desk) :
    d.save.map (logbook.upTo a) = (logbook.upTo a d).save := by
  unfold save
  rw [show (logbook.upTo a d).store.save (logbook.upTo a d).codec (logbook.upTo a d).files =
    d.store.save d.codec d.files from rfl]
  cases d.store.save d.codec d.files with
  | error f => rfl
  | ok p => exact congrArg Except.ok (upTo_noteAll p.2 { d with files := p.1 })

theorem upTo_reopen (d : Desk) : logbook.upTo a d.reopen = (logbook.upTo a d).reopen :=
  upTo_noteAll _ _

theorem upTo_openWith (h : a.rank ≤ b.rank) (policy : StorePolicy) (codec : Codec) (files : Files) :
    logbook.upTo a (openWith policy codec files b) = openWith policy codec files a := by
  simp only [openWith, Logbook.upTo, logbook, Log.upTo_writeAll, Log.upTo_new h]

theorem ignoresLog_perform : logbook.Ignores fun c d => perform d c := by
  intro a c d
  cases c with
  | create source =>
    simp only [perform, upTo_settle, upTo_create]
  | update source =>
    simp only [perform, upTo_settle, upTo_update]
  | save =>
    simp only [perform, upTo_settle, upTo_save]
  | read id place => cases place <;> rfl
  | change place op =>
    simp only [perform, show (logbook.upTo a d).copy? place = d.copy? place from rfl]
    cases d.copy? place <;> rfl
  | load => exact Prod.ext rfl (upTo_noteAll _ _)
  | reopen => exact Prod.ext rfl (upTo_reopen d)
  | _ => rfl

end Desk

/-! ## Registries -/

namespace Scene

def logbook : Logbook Scene where
  log := Scene.log
  setLog g s := { s with log := g }
  log_setLog _ _ := rfl
  setLog_log _ := rfl
  setLog_setLog _ _ _ := rfl

theorem upTo_stage {act : Command → Scene → Except Fault Reply × Scene} (hact : logbook.Ignores act) :
    (stage act).View (logbook.upTo a) (stage act) where
  registry _ := rfl
  setRegistry _ _ := rfl
  note level message s := by
    simp only [stage, Logbook.upTo, logbook, Log.upTo_write]
  act _ c s := hact a c s

theorem ignoresLog_performWith {act : Command → Scene → Except Fault Reply × Scene}
    (hact : logbook.Ignores act) : logbook.Ignores (performWith act) := by
  intro a c s
  cases c with
  | add name =>
    simp only [performWith, show (logbook.upTo a s).registry = s.registry from rfl,
      show (logbook.upTo a s).find name = s.find name from rfl]
    cases s.registry.add (s.find name) <;> rfl
  | announce ev => exact Prod.ext rfl ((upTo_stage hact).announce ev s.session s)
  | _ => rfl

theorem ignoresLog_perform (n : Nat) : logbook.Ignores (perform n) := by
  induction n with
  | zero => exact ignoresLog_performWith fun _ _ _ => rfl
  | succ n ih => exact ignoresLog_performWith ih

end Scene

/-! ## Handles -/

namespace Rehearsal

def logbook : Logbook Rehearsal where
  log := Rehearsal.log
  setLog g s := { s with log := g }
  log_setLog _ _ := rfl
  setLog_log _ := rfl
  setLog_setLog _ _ _ := rfl

theorem upTo_respond (c : Call) (i : Id) (s : Rehearsal) :
    Prod.map id (logbook.upTo a) (respond c i s) = respond c i (logbook.upTo a s) := by
  unfold respond
  rw [show (logbook.upTo a s).queue = s.queue from rfl,
    show (logbook.upTo a s).faults = s.faults from rfl]
  cases s.queue with
  | cons new rest => rfl
  | nil =>
    simp only
    cases s.faults.lookup i <;> rfl

section

variable {act : Command → Rehearsal → Except Fault Answer × Rehearsal} (hact : logbook.Ignores act)
include hact

theorem upTo_reenter (cs : List Command) (s : Rehearsal) :
    logbook.upTo a (reenter act cs s) = reenter act cs (logbook.upTo a s) := by
  induction cs generalizing s with
  | nil => rfl
  | cons c cs ih =>
    unfold reenter
    rw [← hact a c s]
    exact ih _

theorem upTo_client : (client act).View (logbook.upTo a) (client act) where
  handle _ := rfl
  setHandle _ _ := rfl
  note level message s := by
    simp only [client, Logbook.upTo, logbook, Log.upTo_write]
  call c i ctx s := by
    simp only [client, call]
    rw [upTo_respond, upTo_reenter hact]
    rfl

theorem ignoresLog_performWith : logbook.Ignores (performWith act) := by
  intro a c s
  cases c with
  | fail i fault => cases fault <;> rfl
  | call c =>
    simp only [performWith]
    rw [← (upTo_client hact).perform]
    rfl
  | isValid =>
    simp only [performWith]
    rw [← (upTo_client hact).isValid]
    rfl
  | _ => rfl

end

theorem ignoresLog_perform (n : Nat) : logbook.Ignores (perform n) := by
  induction n with
  | zero => exact ignoresLog_performWith fun _ _ _ => rfl
  | succ n ih => exact ignoresLog_performWith ih

theorem upTo_begin (h : a.rank ≤ b.rank) (manager starting : Bool) (i : Id) (host : Option Text)
    (ctx : Context) (table : List Record) :
    (begin manager starting i host ctx table (Log.new b)).map (logbook.upTo a) =
      begin manager starting i host ctx table (Log.new a) := by
  have hbound (hd : Handle) :
      logbook.upTo a (ofHandle hd table (Log.new b)) = ofHandle hd table (Log.new a) :=
    congrArg (ofHandle hd table) (Log.upTo_new h)
  cases manager with
  | false => rfl
  | true =>
    cases starting with
    | true =>
      cases hd : Handle.bind firstId ctx with
      | error f => simp [begin, hd, Except.map]
      | ok hd' =>
        simp only [begin, hd, Except.map, ← hbound]
        rfl
    | false =>
      cases hd : Handle.bind i ctx with
      | error f => simp [begin, hd, Except.map]
      | ok hd' =>
        simp only [begin, hd, Except.map, ← hbound]
        rfl

end Rehearsal

/-! ## Sweepers -/

namespace SweeperOwner

def logbook : Logbook SweeperOwner where
  log := SweeperOwner.log
  setLog g o := { o with log := g }
  log_setLog _ _ := rfl
  setLog_log _ := rfl
  setLog_setLog _ _ _ := rfl

theorem upTo_go (o : SweeperOwner) (s : Option Sweeper) (lines : List LogLine) :
    logbook.upTo a (o.go s lines) = (logbook.upTo a o).go s lines := by
  simp only [go, Logbook.upTo, logbook, Log.upTo_writeAll]

theorem upTo_use (o : SweeperOwner) (s : Sweeper) (c : Command) :
    Prod.map id (logbook.upTo a) (o.use s c) = (logbook.upTo a o).use s c := by
  cases c with
  | enable | disable | destroy | run => exact Prod.ext rfl (upTo_go _ _ _)
  | isEnabled | interval | counts => rfl
  | setInterval t =>
    simp only [use]
    cases s.setInterval t with
    | error f => rfl
    | ok s => exact Prod.ext rfl (upTo_go _ _ _)
  | runToDestruction interval times =>
    simp only [use]
    obtain ⟨r, s', lines⟩ := s.runToDestruction interval (List.replicate times none)
    cases r with
    | error f => exact Prod.ext rfl (upTo_go _ _ _)
    | ok u => exact Prod.ext rfl (upTo_go _ _ _)

theorem ignoresLog_perform : logbook.Ignores fun c o => perform o c := by
  intro a c o
  simp only [perform, show (logbook.upTo a o).sweeper = o.sweeper from rfl]
  cases o.sweeper with
  | none => rfl
  | some s => exact upTo_use o s c

theorem upTo_new (h : a.rank ≤ b.rank) (hasTask : Bool) (interval : Millis) :
    (new hasTask interval b).map (logbook.upTo a) = new hasTask interval a := by
  unfold new
  cases Sweeper.new? hasTask interval with
  | error f => rfl
  | ok s => exact congrArg (fun g => Except.ok (SweeperOwner.mk (some s) g)) (Log.upTo_new h)

end SweeperOwner

/-! ## Loggers -/

namespace Logger

def logAll (l : Logger) (lines : List LogLine) : Logger :=
  lines.foldl (fun l x => l.log x.level x.message) l

theorem setLevel_log (l : Logger) (level : Level) (message : Text) :
    ((l.setLevel b).log level message).setLevel b = (l.setLevel b).log level message := by
  unfold log
  split <;> rfl

theorem log_setLevel (h : a.rank ≤ b.rank) (l : Logger) (x : LogLine) :
    (l.setLevel a).log x.level x.message =
      if a.covers x.level then ((l.setLevel b).log x.level x.message).setLevel a else l.setLevel a := by
  cases hx : a.covers x.level with
  | false => simp [log, isEnabled, setLevel, hx]
  | true =>
    have hx' : b.covers x.level = true :=
      Level.covers_iff.2 ⟨(Level.covers_iff.1 hx).1, UInt8.le_trans (Level.covers_iff.1 hx).2 h⟩
    simp only [log, isEnabled, setLevel, hx, hx', if_true]
    rfl

theorem logAll_setLevel (h : a.rank ≤ b.rank) (l : Logger) (lines : List LogLine) :
    (l.setLevel a).logAll lines =
      ((l.setLevel b).logAll (lines.filter (a.covers ·.level))).setLevel a := by
  induction lines generalizing l with
  | nil => rfl
  | cons x xs ih =>
    have hfirst := log_setLevel h l x
    have hlog (l : Logger) : l.logAll (x :: xs) = (l.log x.level x.message).logAll xs := rfl
    cases hx : a.covers x.level with
    | false =>
      rw [hx, if_neg Bool.false_ne_true] at hfirst
      rw [hlog, hfirst, ih, List.filter_cons, hx, if_neg Bool.false_ne_true]
    | true =>
      rw [hx, if_pos rfl] at hfirst
      rw [hlog, hfirst, ih, setLevel_log, List.filter_cons, if_pos hx]
      rfl

end Logger

/-! ## All of them -/

namespace Logbook

variable {C R σ : Type}

/-- Two attempts to begin come to the same fault, or both come to a state, and whatever is asked from
there is answered alike. -/
inductive SoftenedFrom (k : Logbook σ) (a : Level) (step : C → σ → R × σ) :
    Except Fault σ → Except Fault σ → Prop
  | fault (f : Fault) : SoftenedFrom k a step (.error f) (.error f)
  | begun {s s' : σ} (h : ∀ cs, k.Softened a (inTurn step cs s) (inTurn step cs s')) :
    SoftenedFrom k a step (.ok s) (.ok s')

/-- It is enough to look at how the states are put together, given a level. -/
theorem softenedFrom {k : Logbook σ} {step : C → σ → R × σ} (hstep : k.Ignores step)
    (opened : Level → Except Fault σ)
    (hopened : ∀ {a b : Level}, a.rank ≤ b.rank → (opened b).map (k.upTo a) = opened a)
    (h : a.rank ≤ b.rank) : k.SoftenedFrom a step (opened a) (opened b) := by
  have hself : (opened b).map (k.upTo b) = opened b := hopened (UInt8.le_refl b.rank)
  rw [← hopened h]
  cases hb : opened b with
  | error f => exact .fault f
  | ok s =>
    rw [hb] at hself
    exact .begun (softened hstep rfl (Except.ok.inj hself))

end Logbook

/-- **The log has no influence.** Take two levels, the first of which is at most the second one. Engines
that are put together alike but for the level answer every sequence of commands alike, with any
listeners and hooks, and so do stores, registries, handles and sweepers: the same results and faults, the
same announcements, counts and records. What was logged at the first level is what was logged at the
second one, without the lines above the first. A logger with its sinks writes at the first level what it
writes at the second one of the lines that the first one covers. -/
theorem levels_have_no_influence (h : a.rank ≤ b.rank) :
    (∀ settings clock source depth, Engine.logbook.SoftenedFrom a (Engine.perform depth)
      (Engine.new settings clock source a) (Engine.new settings clock source b)) ∧
    (∀ policy codec files, Desk.logbook.SoftenedFrom a (fun c d => Desk.perform d c)
      (.ok (Desk.openWith policy codec files a)) (.ok (Desk.openWith policy codec files b))) ∧
    (∀ registry session depth, Scene.logbook.SoftenedFrom a (Scene.perform depth)
      (.ok ⟨registry, session, Log.new a⟩) (.ok ⟨registry, session, Log.new b⟩)) ∧
    (∀ manager starting i host ctx table depth, Rehearsal.logbook.SoftenedFrom a
      (Rehearsal.perform depth)
      (Rehearsal.begin manager starting i host ctx table (Log.new a))
      (Rehearsal.begin manager starting i host ctx table (Log.new b))) ∧
    (∀ hasTask interval, SweeperOwner.logbook.SoftenedFrom a (fun c o => SweeperOwner.perform o c)
      (SweeperOwner.new hasTask interval a) (SweeperOwner.new hasTask interval b)) ∧
    ∀ (l : Logger) lines, (l.setLevel a).logAll lines =
      ((l.setLevel b).logAll (lines.filter (a.covers ·.level))).setLevel a := by
  refine ⟨fun settings clock source depth => ?_, fun policy codec files => ?_,
    fun registry session depth => ?_, fun manager starting i host ctx table depth => ?_,
    fun hasTask interval => ?_, fun l lines => ?_⟩
  · exact Logbook.softenedFrom (Engine.ignoresLog_perform depth) (Engine.new settings clock source)
      (fun h => Engine.upTo_new h settings clock source) h
  · exact Logbook.softenedFrom Desk.ignoresLog_perform
      (fun level => .ok (Desk.openWith policy codec files level))
      (fun h => congrArg Except.ok (Desk.upTo_openWith h policy codec files)) h
  · exact Logbook.softenedFrom (Scene.ignoresLog_perform depth)
      (fun level => .ok ⟨registry, session, Log.new level⟩)
      (fun h => congrArg (fun g => Except.ok (Scene.mk registry session g)) (Log.upTo_new h)) h
  · exact Logbook.softenedFrom (Rehearsal.ignoresLog_perform depth)
      (fun level => Rehearsal.begin manager starting i host ctx table (Log.new level))
      (fun h => Rehearsal.upTo_begin h manager starting i host ctx table) h
  · exact Logbook.softenedFrom SweeperOwner.ignoresLog_perform (SweeperOwner.new hasTask interval)
      (fun h => SweeperOwner.upTo_new h hasTask interval) h
  · exact Logger.logAll_setLevel h l lines

/-- A session starts, a listener fails, the session expires: at the level of warnings the failure is
logged, and of all that happens nothing else. -/
theorem levels_have_no_influence_where_a_listener_fails :
    let opened := Engine.new {} (.still 7) fun n => (0, n.toUInt64)
    let failing : Listener Engine.Command := .scripted "l" (· == .start) (fun _ => [.fail "no"]) 9
    let run (e : Engine) := (inTurn (Engine.perform 1)
      [.setSweeping false, .listen failing, .start none, .advanceClock 1800001, .sweep] e).2
    (∀ depth, Engine.logbook.SoftenedFrom .warn (Engine.perform depth) (opened .warn) (opened .trace)) ∧
      ∃ e e', opened .warn = .ok e ∧ opened .trace = .ok e' ∧
        (run e).stats = (run e').stats ∧ (run e).stats.expired = 1 ∧
        (run e).log.lines.map (·.level) = [.error] ∧
        (run e').log.lines.map (·.level) = [.debug, .error, .info, .debug, .info] := by
  refine ⟨fun depth => ?_, _, _, rfl, rfl, by decide +kernel, by decide +kernel, by decide +kernel,
    by decide +kernel⟩
  exact (levels_have_no_influence (a := .warn) (b := .trace) (by decide)).1 {} (.still 7)
    (fun n => (0, n.toUInt64)) depth

end Sessions
