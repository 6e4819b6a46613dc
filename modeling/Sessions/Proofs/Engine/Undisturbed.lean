import Sessions.Engine.Run
import Sessions.Proofs.Record.Life

/-!
# Sessions.Proofs.Engine.Undisturbed

How the manager's programs run on an engine whose store has no hooks. Every use of the store is then
the use alone, and a program is followed question by question.

* `runOp_bind_ok`, `runOp_bind_error`, `runOp_locked`: programs one behind the other, and under the
  lock.
* `Undisturbed.fire`: nothing is carried out in front of a use of the store.
* `exists_createNow`, `exists_updateNow`: what such a use leaves alone.
* `runOp_start_of_check_ok`, `runOp_expire_of_timedOut`, `runOp_stopNow_of_some`: the programs by
  which sessions begin and end, each as one equation, beside those for the cases where nothing comes
  of it.
* `runOp_mutate_of_session`, `runOp_stop_of_session`: how an operation goes on with a session that it has
  looked up.
-/

namespace Sessions
namespace Engine

variable {α β : Type} {act : Act} {e e' : Engine}

/-! ## Programs one behind the other -/

theorem runOp_bind_ok {p : Manager.Op α} {f : α → Manager.Op β} {a : α}
    (h : runOp act p e = (.ok a, e')) : runOp act (p >>= f) e = runOp act (f a) e' := by
  unfold runOp at h ⊢
  rw [Program.run_bind, h]

theorem runOp_bind_error {p : Manager.Op α} {f : α → Manager.Op β} {x : Fault}
    (h : runOp act p e = (.error x, e')) : runOp act (p >>= f) e = (.error x, e') := by
  unfold runOp at h ⊢
  rw [Program.run_bind, h]

theorem runOp_bind_eq_ok {p : Manager.Op α} {f : α → Manager.Op β} {b : β}
    (h : runOp act (p >>= f) e = (.ok b, e')) :
    ∃ a e'', runOp act p e = (.ok a, e'') ∧ runOp act (f a) e'' = (.ok b, e') := by
  cases hp : runOp act p e with
  | mk r e'' =>
    cases r with
    | error x =>
      rw [runOp_bind_error hp] at h
      cases h
    | ok a =>
      rw [runOp_bind_ok hp] at h
      exact ⟨a, e'', rfl, h⟩

theorem runOp_ofExcept (act : Act) (r : Except Fault α) (e : Engine) :
    runOp act (Program.ofExcept r : Manager.Op α) e = (r, e) := rfl

theorem runOp_attempt (p : Manager.Op α) :
    runOp act p.attempt e = (.ok (runOp act p e).1, (runOp act p e).2) := Program.run_attempt _ p e

/-- Nobody else holds the lock, so it changes nothing. -/
theorem runOp_locked (p : Manager.Op α) : runOp act (Manager.locked p) e = runOp act p e := by
  have hlock : runOp act (Manager.ask .lock) e = (.ok (), e) := rfl
  rw [Manager.locked, runOp_bind_ok hlock, runOp_bind_ok (runOp_attempt p)]
  rfl

/-! ## Single questions -/

def afterReading (e : Engine) : Engine := { e with clock := e.clock.read.2 }

def counting (e : Engine) (c : Manager.Counter) : Engine := { e with stats := e.stats.bump c }

theorem runOp_clock : runOp act Manager.clock e = (.ok e.clock.now, e.afterReading) := rfl

theorem runOp_mint : runOp act Manager.mint e = (.ok e.draw.1, e.draw.2) := rfl

theorem runOp_timeout : runOp act Manager.timeout e = (.ok e.timeout, e) := rfl

theorem runOp_autoCreate : runOp act Manager.autoCreate e = (.ok e.autoCreate, e) := rfl

theorem runOp_allow (host : Option Text) :
    runOp act (Manager.allow host) e = (e.admission.check host, e) := rfl

theorem runOp_count (c : Manager.Counter) :
    runOp act (Manager.count c) e = (.ok (), e.counting c) := rfl

theorem runOp_log (level : Level) (message : Text) :
    runOp act (Manager.log level message) e = (.ok (), e.note level message) := rfl

theorem runOp_announce (ev : Event) (r : Record) :
    runOp act (Manager.announce ev r) e = (.ok (), announce act ev r e) := rfl

/-! ## The store without hooks -/

/-- No commands wait for a use of the store. -/
def Undisturbed (e : Engine) : Prop := e.disturbance.hooks = []

theorem undisturbed_of_calm (h : e.disturbance = .calm) : e.Undisturbed := by
  rw [Undisturbed, h]
  rfl

theorem eq_calm {d : Disturbance}
    (h : d.poisoned.isEmpty ∧ d.createFails = false ∧ d.listFails = false ∧ d.hooks.isEmpty) :
    d = .calm := by
  obtain ⟨poisoned, createFails, listFails, hooks⟩ := d
  obtain ⟨hpoisoned, rfl, rfl, hhooks⟩ := h
  cases List.isEmpty_iff.1 hpoisoned
  cases List.isEmpty_iff.1 hhooks
  rfl

theorem Undisturbed.fire (h : e.Undisturbed) (act : Act) (p : Point) :
    fire act p e = (.ok (), e) := by
  have hdue : e.disturbance.due p = [] := by
    rw [Disturbance.due, h]
    rfl
  have hpass : e.disturbance.pass p = e.disturbance := by
    rw [Disturbance.pass, h]
    cases hd : e.disturbance with
    | mk poisoned createFails listFails hooks =>
      rw [Undisturbed, hd] at h
      subst h
      rfl
  unfold Engine.fire
  rw [hdue, hpass]
  rfl

namespace Undisturbed

variable (h : e.Undisturbed) (act : Act)
include h

theorem answer_read (id : Id) : answer act (.read id) e = (.ok (e.store.read id), e) := by
  change behindHooks act .read _ e = _
  rw [behindHooks, h.fire]

theorem answer_create (r : Record) : answer act (.create r) e = e.createNow r := by
  change behindHooks act .create _ e = _
  rw [behindHooks, h.fire]

theorem answer_update (r : Record) : answer act (.update r) e = e.updateNow r := by
  change behindHooks act .update _ e = _
  rw [behindHooks, h.fire]

theorem answer_live : answer act .live e = (e.listNow, e) := by
  change listThenHooks act e = _
  unfold listThenHooks
  split
  · rename_i f hf
    rw [hf]
  · rename_i rs hrs
    rw [h.fire, hrs]

end Undisturbed

theorem runOp_read (act : Act) (h : e.Undisturbed) (id : Id) :
    runOp act (Manager.read id) e = (.ok (e.store.read id), e) := h.answer_read act id

theorem runOp_create (act : Act) (h : e.Undisturbed) (r : Record) :
    runOp act (Manager.create r) e = e.createNow r := h.answer_create act r

theorem runOp_update (act : Act) (h : e.Undisturbed) (r : Record) :
    runOp act (Manager.update r) e = e.updateNow r := h.answer_update act r

theorem runOp_live (act : Act) (h : e.Undisturbed) : runOp act Manager.live e = (e.listNow, e) :=
  h.answer_live act

/-- A record that is created changes the store, and the journal tells what it holds then. -/
theorem exists_createNow (r : Record) (e : Engine) :
    ∃ store known log, ∃ contents : List Roster, (e.createNow r).2 =
      { e with store, known, log, journal := e.journal ++ contents.map .stored } := by
  have hnothing : ∃ store known log, ∃ contents : List Roster,
      e = { e with store, known, log, journal := e.journal ++ contents.map .stored } :=
    ⟨e.store, e.known, e.log, [], by simp⟩
  unfold createNow
  split
  · exact hnothing
  · split
    · exact hnothing
    · exact ⟨_, _, _, [_], rfl⟩

theorem exists_updateNow (r : Record) (e : Engine) :
    ∃ store, ∃ contents : List Roster, (e.updateNow r).2 =
      { e with store, journal := e.journal ++ contents.map .stored } := by
  have hnothing : ∃ store, ∃ contents : List Roster,
      e = { e with store, journal := e.journal ++ contents.map .stored } := ⟨e.store, [], by simp⟩
  unfold updateNow
  split
  · exact hnothing
  · split
    · exact hnothing
    · exact ⟨_, [_], rfl⟩

/-! ## Starting -/

/-- The record of a session that is started now. -/
def fresh (e : Engine) (host : Option Text) : Record :=
  Record.new e.draw.1 e.clock.now host e.timeout

/-- An id and the time were asked for. -/
def supplied (e : Engine) : Engine := e.draw.2.afterReading

/-- A session came into being: it is counted, logged and announced. -/
def launched (act : Act) (r : Record) (e : Engine) : Engine :=
  announce act .start r ((e.counting .started).note .debug
    ("Started session " ++ r.id ++ " for host " ++ Manager.hostText r.host))

variable {host : Option Text} {f : Fault}

theorem runOp_start_of_ensure_error (h : e.ensureBackground = (.error f, e')) :
    runOp act (Manager.start host) e = (.error f, e') :=
  runOp_bind_error h

theorem runOp_start_of_check_error (h : e.ensureBackground = (.ok (), e'))
    (hcheck : e'.admission.check host = .error f) :
    runOp act (Manager.start host) e = (.error f, e') := by
  have hensure : runOp act Manager.ensureSweeping e = (.ok (), e') := h
  have hallow : runOp act (Manager.allow host) e' = (.error f, e') := by rw [runOp_allow, hcheck]
  rw [Manager.start, runOp_bind_ok hensure, runOp_bind_ok runOp_timeout]
  exact runOp_bind_error hallow

/-- Host and background agree: what becomes of the session is up to the store. -/
theorem runOp_start_of_check_ok (hcalm : e'.Undisturbed) (h : e.ensureBackground = (.ok (), e'))
    (hcheck : e'.admission.check host = .ok ()) :
    runOp act (Manager.start host) e =
      match e'.supplied.createNow (e'.fresh host) with
      | (.error f, e'') => (.error f, e'')
      | (.ok _, e'') => (.ok e'.draw.1, e''.launched act (e'.fresh host)) := by
  have hensure : runOp act Manager.ensureSweeping e = (.ok (), e') := h
  have hallow : runOp act (Manager.allow host) e' = (.ok (), e') := by rw [runOp_allow, hcheck]
  have hsupplied : e'.supplied.Undisturbed := hcalm
  rw [Manager.start, runOp_bind_ok hensure, runOp_bind_ok runOp_timeout, runOp_bind_ok hallow,
    runOp_bind_ok runOp_mint, runOp_bind_ok runOp_clock]
  have hcreate := runOp_create act hsupplied (e'.fresh host)
  cases hnow : e'.supplied.createNow (e'.fresh host) with
  | mk r e'' =>
    rw [hnow] at hcreate
    cases r with
    | error f => exact runOp_bind_error hcreate
    | ok u => exact runOp_bind_ok hcreate

/-! ## Ending -/

variable {id : Id} {now : Timestamp} {r : Record}

theorem runOp_expire_of_none (hcalm : e.Undisturbed) (hread : e.store.read id = none) :
    runOp act (Manager.expireIfTimedOut id now) e = (.ok (none, false), e) := by
  have h := runOp_read act hcalm id
  rw [hread] at h
  rw [Manager.expireIfTimedOut, runOp_locked, runOp_bind_ok h]
  rfl

theorem runOp_expire_of_not_timedOut (hcalm : e.Undisturbed) (hread : e.store.read id = some r)
    (hnow : r.validity now ≠ .timedOut) :
    runOp act (Manager.expireIfTimedOut id now) e = (.ok (some r, false), e) := by
  have h := runOp_read act hcalm id
  rw [hread] at h
  rw [Manager.expireIfTimedOut, runOp_locked, runOp_bind_ok h]
  simp only [if_neg hnow]
  rfl

/-- A session that is timed out is marked, unless the mark cannot be written. -/
theorem runOp_expire_of_timedOut (act : Act) (hcalm : e.Undisturbed) (hread : e.store.read id = some r)
    (hnow : r.validity now = .timedOut) :
    runOp act (Manager.expireIfTimedOut id now) e =
      match e.updateNow r.marked with
      | (.error f, e') => (.error f, e')
      | (.ok _, e') => (.ok (some r.marked, true), e'.counting .expired) := by
  have h := runOp_read act hcalm id
  rw [hread] at h
  have hmark : runOp act (Program.ofExcept r.expire) e = (.ok r.marked, e) := by
    rw [runOp_ofExcept, Record.expire_of_timedOut hnow]
  rw [Manager.expireIfTimedOut, runOp_locked, runOp_bind_ok h]
  simp only [if_pos hnow]
  rw [runOp_bind_ok hmark]
  have hupdate := runOp_update act hcalm r.marked
  cases hwrite : e.updateNow r.marked with
  | mk o e' =>
    rw [hwrite] at hupdate
    cases o with
    | error f => exact runOp_bind_error hupdate
    | ok u =>
      rw [runOp_bind_ok hupdate, runOp_bind_ok (runOp_count .expired)]
      rfl

/-- A session is stopped, unless it ended before or the stop cannot be written. -/
theorem runOp_stopNow_of_some (act : Act) (hcalm : e.Undisturbed) (hread : e.store.read id = some r) :
    runOp act (Manager.stopNow id) e =
      match r.stop e.clock.now with
      | .error f => (.error f, e.afterReading)
      | .ok stopped =>
        match e.afterReading.updateNow stopped with
        | (.error f, e') => (.error f, e')
        | (.ok _, e') => (.ok stopped, e') := by
  have h := runOp_read act hcalm id
  rw [hread] at h
  rw [Manager.stopNow, runOp_locked, runOp_bind_ok h]
  simp only
  rw [runOp_bind_ok runOp_clock]
  have hstop := runOp_ofExcept act (r.stop e.clock.now) e.afterReading
  cases hr : r.stop e.clock.now with
  | error f =>
    rw [hr] at hstop
    exact runOp_bind_error hstop
  | ok stopped =>
    rw [hr] at hstop
    rw [runOp_bind_ok hstop]
    have hafter : e.afterReading.Undisturbed := hcalm
    have hupdate := runOp_update act hafter stopped
    simp only
    cases hwrite : e.afterReading.updateNow stopped with
    | mk o e' =>
      rw [hwrite] at hupdate
      cases o with
      | error f => exact runOp_bind_error hupdate
      | ok u => exact runOp_bind_ok hupdate

/-! ## Changing and stopping what was looked up -/

variable {ctx : Context}

/-- The answer of a change, once the changed record is written, if there is one. -/
def writing {α : Type} (e : Engine) : Except Fault (α × Option Record) → Except Fault α × Engine
  | .error f => (.error f, e)
  | .ok (a, none) => (.ok a, e)
  | .ok (a, some r') =>
    match e.updateNow r' with
    | (.error f, e') => (.error f, e')
    | (.ok _, e') => (.ok a, e')

/-- A change of the session that an operation works on: computed at the next reading, and written if it
comes to anything. -/
theorem runOp_mutate_of_session {α : Type}
    (change : Record → Timestamp → Except Fault (α × Option Record)) (hhooks : e'.Undisturbed)
    (hsession : runOp act (Manager.getSession id ctx) e = (.ok r, e')) :
    runOp act (Manager.mutate id ctx change) e =
      e'.afterReading.writing (change r e'.clock.now) := by
  have hchange := runOp_ofExcept act (change r e'.clock.now) e'.afterReading
  rw [Manager.mutate, runOp_bind_ok hsession, runOp_bind_ok runOp_clock]
  cases ho : change r e'.clock.now with
  | error f =>
    rw [ho] at hchange
    exact runOp_bind_error hchange
  | ok p =>
    obtain ⟨a, changed⟩ := p
    rw [ho] at hchange
    rw [runOp_bind_ok hchange]
    cases changed with
    | none => rfl
    | some r' =>
      have hupdate := runOp_update act (e := e'.afterReading) hhooks r'
      simp only [writing]
      cases hwrite : e'.afterReading.updateNow r' with
      | mk o e'' =>
        rw [hwrite] at hupdate
        cases o with
        | error f => exact runOp_bind_error hupdate
        | ok u => exact runOp_bind_ok hupdate

/-- A stop of the session that an operation works on is counted, logged and announced. -/
theorem runOp_stop_of_session (hsession : runOp act (Manager.getSession id ctx) e = (.ok r, e')) :
    runOp act (Manager.stop id ctx) e =
      match runOp act (Manager.stopNow id) e' with
      | (.error f, e'') => (.error f, e'')
      | (.ok stopped, e'') => (.ok (), announce act .stop stopped
          ((e''.counting .stopped).note .debug ("Stopped session " ++ id))) := by
  rw [Manager.stop, runOp_bind_ok hsession]
  cases hstop : runOp act (Manager.stopNow id) e' with
  | mk o e'' =>
    cases o with
    | error f => exact runOp_bind_error hstop
    | ok stopped =>
      rw [runOp_bind_ok hstop, runOp_bind_ok (runOp_count _), runOp_bind_ok (runOp_log _ _)]
      rfl

end Engine
end Sessions
