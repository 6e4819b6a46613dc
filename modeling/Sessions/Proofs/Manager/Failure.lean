import Sessions.Proofs.Engine.Faults
import Sessions.Proofs.Handle.Replacement
import Sessions.Proofs.Manager.Service

/-!
# Sessions.Proofs.Manager.Failure

What a failed operation leaves behind, on a store that may refuse any creation and any write, and with
listeners that ask for nothing. Nothing of the operation itself is ever seen: either nothing happened at
all, or a session that was timed out is marked, or it is replaced by one that has just begun.

* `runOp_start_cases`: a start fails and changes nothing, or a session begins (`Begun`).
* `Access`, `access_getSession`: the ways in which an access ends, each with what it leaves behind.
* `untouched_of_serve_error`: behind the access nothing is half done.
* `failed_operations_leave_store`: all operations.
-/

namespace Sessions

variable {f : Fault}

theorem Fault.isReplacement_hostMalformed (h : Text) :
    (Fault.hostMalformed h).isReplacement = false := by
  unfold hostMalformed
  split <;> rfl

theorem Record.isReplacement_of_endFault {r : Record} (h : r.endFault? = some f) :
    f.isReplacement = false := by
  unfold endFault? at h
  split at h
  · cases h
    rfl
  · split at h <;> cases h
    rfl

namespace Engine

variable {act : Act} {e e' e'' : Engine} {id : Id} {ctx : Context} {r : Record}

/-! ## Faults that tell of no replacement -/

theorem isReplacement_of_ensure (h : e.ensureBackground = (.error f, e')) :
    f.isReplacement = false := by
  obtain rfl | rfl := ensureBackground_eq_error (congrArg Prod.fst h) <;> rfl

theorem isReplacement_of_check {a : Admission} {host : Option Text} (h : a.check host = .error f) :
    f.isReplacement = false := by
  obtain ⟨refused, rfl⟩ | ⟨text, rfl⟩ | rfl := Admission.check_eq_error h
  · rfl
  · exact Fault.isReplacement_hostMalformed text
  · rfl

theorem isReplacement_of_create (h : e.createNow r = (.error f, e')) : f.isReplacement = false := by
  obtain rfl | hcreate := createNow_fault h
  · rfl
  · obtain ⟨_, rfl⟩ | ⟨_, _, rfl⟩ := Store.create_eq_error hcreate <;> rfl

theorem isReplacement_of_update (h : e.updateNow r = (.error f, e')) : f.isReplacement = false := by
  obtain rfl | hupdate := updateNow_fault h
  · rfl
  · obtain rfl | ⟨stored, _, hend⟩ := Store.update_eq_error hupdate
    · rfl
    · exact Record.isReplacement_of_endFault hend

/-! ## Starting -/

theorem Untouched.refl (e : Engine) : Untouched e e := ⟨rfl, rfl, rfl⟩

theorem Untouched.trans (h : Untouched e e') (h' : Untouched e' e'') : Untouched e e'' :=
  ⟨h'.store.trans h.store, h'.journal.trans h.journal, h'.stats.trans h.stats⟩

theorem untouched_of_ensure {o : Except Fault Unit} (h : e.ensureBackground = (o, e')) :
    Untouched e e' := by
  have hsnd : e' = e.ensureBackground.2 := by rw [h]
  subst hsnd
  exact ⟨rfl, rfl, rfl⟩

/-- A session began, and beyond that nothing changed. -/
structure Begun (e e' : Engine) (fresh : Record) : Prop where
  store : ∃ lines, e.store.create fresh = .ok (e'.store, lines)
  journal : e'.journal = e.journal ++ [.stored e'.store.records, .told .start fresh]
  stats : e'.stats = e.stats.bump .started

theorem begun_launched (act : Act) (hpassive : e.Passive) {host : Option Text}
    (h : e.supplied.createNow (e.fresh host) = (.ok (), e')) :
    Begun e (e'.launched act (e.fresh host)) (e.fresh host) := by
  obtain ⟨store, lines, hcreate, rfl⟩ := createNow_eq_ok h
  rw [launched]
  obtain ⟨g, log, hannounced, _⟩ := announce_of_passive act
    (e := ((({ e.supplied with known := e.supplied.known ++ [(e.fresh host).id] }.keep
      store).noteAll lines).counting .started).note .debug ("Started session " ++
        (e.fresh host).id ++ " for host " ++ Manager.hostText (e.fresh host).host))
    hpassive .start (e.fresh host)
  rw [hannounced]
  refine ⟨⟨lines, hcreate⟩, ?_, rfl⟩
  change e.journal ++ [_] ++ [_] = _
  rw [List.append_assoc]
  rfl

/-- A start fails and changes nothing, or a session begins. -/
theorem runOp_start_cases (act : Act) (hhooks : e.Undisturbed) (hpassive : e.Passive)
    (host : Option Text) :
    (∃ f e', runOp act (Manager.start host) e = (.error f, e') ∧ f.isReplacement = false ∧
      Untouched e e') ∨
    ∃ new start e', runOp act (Manager.start host) e = (.ok new, e') ∧
      Begun e e' (Record.new new start host e.timeout) := by
  cases hens : e.ensureBackground with
  | mk o e₁ =>
    have huntouched := untouched_of_ensure hens
    cases o with
    | error f =>
      exact .inl ⟨f, e₁, runOp_start_of_ensure_error hens, isReplacement_of_ensure hens, huntouched⟩
    | ok u =>
      cases hcheck : e₁.admission.check host with
      | error f =>
        exact .inl ⟨f, e₁, runOp_start_of_check_error hens hcheck, isReplacement_of_check hcheck,
          huntouched⟩
      | ok u =>
        have hhooks₁ := undisturbed_of_ensure hhooks hens
        have hrun := @runOp_start_of_check_ok act _ _ _ hhooks₁ hens hcheck
        cases hcreate : e₁.supplied.createNow (e₁.fresh host) with
        | mk o e₂ =>
          rw [hcreate] at hrun
          cases o with
          | error f =>
            obtain rfl := createNow_eq_error hcreate
            exact .inl ⟨f, _, hrun, isReplacement_of_create hcreate,
              huntouched.trans ⟨rfl, rfl, rfl⟩⟩
          | ok u =>
            obtain ⟨b, lines, _, rfl⟩ := ensureBackground_eq_ok hens
            have hbegun := begun_launched (e := e.withBackground b lines) act hpassive hcreate
            exact .inr ⟨_, _, _, hrun, hbegun.store, hbegun.journal, hbegun.stats⟩

/-! ## Accesses -/

/-- How an access ends, and what it leaves behind. -/
inductive Access (e : Engine) (id : Id) (ctx : Context) : Except Fault Record → Engine → Prop where
  | found {r : Record} {e' : Engine} (hread : e.store.read id = some r)
      (hlive : r.isTerminal = false) (h : Untouched e e') : Access e id ctx (.ok r) e'
  /-- It fails before anything happened. -/
  | refused {f : Fault} {e' : Engine} (hfault : f.isReplacement = false) (h : Untouched e e') :
      Access e id ctx (.error f) e'
  /-- It fails behind the validation of the session, which was timed out. -/
  | marked {r : Record} {f : Fault} {e' : Engine} (hfault : f.isReplacement = false)
      (hread : e.store.read id = some r) (hnow : r.validity e.clock.now = .timedOut)
      (h : Validated e e' r e.clock.now) : Access e id ctx (.error f) e'
  /-- It fails because another session was put in the place of the one asked for. -/
  | superseded {r : Record} {new : Id} {start : Timestamp} {cause : Code} {e' : Engine}
      (hread : e.store.read id = some r) (hnow : r.validity e.clock.now ≠ .valid)
      (h : Superseded e e' r e.clock.now (Record.new new start (r.host <|> ctx.host) e.timeout)) :
      Access e id ctx (.error (.replaced id new cause)) e'

/-- The validation of a record that is not timed out is none. -/
theorem Validated.untouched {now : Timestamp} (h : Validated e e' r now)
    (hnow : r.validity now ≠ .timedOut) : Untouched e e' := by
  refine ⟨?_, ?_, ?_⟩
  · rw [h.store, Store.validated_of_not_timedOut hnow]
  · rw [h.journal, expiryEntries, if_neg hnow, List.append_nil]
  · rw [h.stats, expiryStats, if_neg hnow]

/-- A fault behind the validation of a session. -/
theorem Access.of_validated (hfault : f.isReplacement = false) (hread : e.store.read id = some r)
    (h : Validated e e' r e.clock.now) : Access e id ctx (.error f) e' := by
  by_cases hnow : r.validity e.clock.now = .timedOut
  · exact .marked hfault hread hnow h
  · exact .refused hfault (h.untouched hnow)

/-- An invalid session is reported or replaced, once it is validated. -/
theorem access_of_replace (act : Act) (hhooks : e.Undisturbed) (hread : e.store.read id = some r)
    (hnow : r.validity e.clock.now ≠ .valid) (hpoised : Poised e e' r e.clock.now) {why : Fault}
    (hwhy : why.isReplacement = false) {o : Except Fault Manager.Finding}
    (h : runOp act (Manager.replaceOrReport id r.host ctx why) e' = (o, e'')) :
    Access e id ctx (o.bind (·.session)) e'' := by
  cases hauto : e'.autoCreate with
  | false =>
    rw [runOp_replace_off hauto] at h
    cases h
    exact .of_validated hwhy hread hpoised.validated
  | true =>
    have hhooks' : e'.Undisturbed := by
      rw [Undisturbed, hpoised.disturbance]
      exact hhooks
    obtain ⟨f, e₁, hstart, hfault, huntouched⟩ | ⟨new, start, e₁, hstart, hbegun⟩ :=
      runOp_start_cases act hhooks' hpoised.passive (r.host <|> ctx.host)
    · rw [runOp_replace_of_error hauto hstart] at h
      cases h
      have hvalidated : Validated e e'' r e.clock.now :=
        ⟨huntouched.store.trans hpoised.validated.store,
          huntouched.journal.trans hpoised.validated.journal,
          huntouched.stats.trans hpoised.validated.stats⟩
      exact .of_validated hfault hread hvalidated
    · rw [runOp_replace_of_ok hauto hstart] at h
      cases h
      obtain ⟨lines, hcreate⟩ := hbegun.store
      rw [hpoised.validated.store, hpoised.timeout] at hcreate
      have hjournal := hbegun.journal
      rw [hpoised.validated.journal, hpoised.timeout] at hjournal
      have hstats := hbegun.stats
      rw [hpoised.validated.stats] at hstats
      exact .superseded hread hnow ⟨⟨lines, hcreate⟩, hjournal, congrArg (·.bump .replaced) hstats⟩

/-- Every access ends in one of these ways. -/
theorem access_getSession (act : Act) (hhooks : e.Undisturbed) (hpassive : e.Passive) (id : Id)
    (ctx : Context) :
    Access e id ctx (runOp act (Manager.getSession id ctx) e).1
      (runOp act (Manager.getSession id ctx) e).2 := by
  by_cases hid : id = []
  · subst hid
    rw [runOp_getSession_of_error runOp_lookup_of_malformed]
    exact .refused rfl (.refl e)
  · cases hens : e.ensureBackground with
    | mk o e₁ =>
      have huntouched := untouched_of_ensure hens
      cases o with
      | error f =>
        rw [runOp_getSession_of_ensure_error hid hens]
        exact .refused (isReplacement_of_ensure hens) huntouched
      | ok u =>
        have hpoised := poised_judged act hpassive hens
        have hhooks₁ := undisturbed_of_ensure hhooks hens
        have hread₁ : e₁.store.read id = e.store.read id := by rw [huntouched.store]
        have hclock₁ : e₁.clock = e.clock := by
          obtain ⟨b, lines, _, rfl⟩ := ensureBackground_eq_ok hens
          rfl
        have hlooked : Untouched e e₁.afterReading := huntouched.trans ⟨rfl, rfl, rfl⟩
        cases hread : e.store.read id with
        | none =>
          rw [hread] at hread₁
          rw [runOp_getSession_of_ok (runOp_lookup_of_none hid hens hhooks₁ hread₁)]
          exact .refused rfl huntouched
        | some r =>
          rw [hread] at hread₁
          cases hnow : r.validity e.clock.now with
          | valid =>
            rw [← hclock₁] at hnow
            rw [runOp_getSession_of_ok (runOp_lookup_of_valid hid hens hhooks₁ hread₁ hnow)]
            exact .found hread (Record.isTerminal_of_validity (Or.inl hnow)) hlooked
          | timedOut =>
            obtain ⟨f, hwrite, hfailed⟩ | ⟨_, hreplace⟩ :=
              runOp_lookup_of_marking act ctx hid hhooks hens hread hnow
            · rw [runOp_getSession_of_error hfailed]
              exact .refused (isReplacement_of_update hwrite) hlooked
            · rw [runOp_getSession_eq, hreplace]
              exact access_of_replace act hhooks hread (by simp [hnow]) (hpoised r) rfl rfl
          | _ =>
            have hnot : r.validity e.clock.now ≠ .timedOut := by simp [hnow]
            have hended : r.validity e.clock.now = .stopped ∨ r.validity e.clock.now = .expired := by
              simp [hnow]
            obtain ⟨why, hwhy⟩ := Record.exists_endFault hended
            rw [runOp_getSession_eq, runOp_lookup_of_ended hid hens hhooks₁ hread₁ hwhy,
              ← judged_of_not_timedOut act hens hnot]
            exact access_of_replace act hhooks hread (by simp [hnow]) (hpoised r)
              (Record.isReplacement_of_endFault hwhy) rfl

/-! ## Behind the access -/

section

variable (hhooks : e'.Undisturbed)
variable (hsession : runOp act (Manager.getSession id ctx) e = (.ok r, e'))
include hhooks hsession

variable (hread : e'.store.read id = some r) (hlive : r.isTerminal = false)
include hread hlive

/-- A stop goes wrong before anything is written. -/
theorem untouched_of_stop_error (h : runOp act (Manager.stop id ctx) e = (.error f, e'')) :
    f.isReplacement = false ∧ Untouched e' e'' := by
  rw [runOp_stop_of_session hsession, runOp_stopNow_of_some act hhooks hread,
    Record.stop_of_live hlive] at h
  simp only at h
  split at h
  · rename_i g e₁ hwrite
    cases h
    split at hwrite
    · rename_i hupdate
      cases hwrite
      obtain rfl := updateNow_eq_error hupdate
      exact ⟨isReplacement_of_update hupdate, rfl, rfl, rfl⟩
    · cases hwrite
  · cases h

/-- Whatever fails behind the access of a valid session leaves everything as it was. -/
theorem untouched_of_serve_error (c : Call)
    (h : runOp act (Manager.serve id ctx c) e = (.error f, e'')) :
    f.isReplacement = false ∧ Untouched e' e'' := by
  by_cases hreading : c.mutator? = none
  · obtain ⟨a, _, hrun⟩ := runOp_serve_of_reading hreading e'.clock.now hsession
    cases hrun.symm.trans h
  · by_cases hstop : c = .stop
    · subst hstop
      exact untouched_of_stop_error hhooks hsession hread hlive h
    · rw [runOp_serve_of_session hreading hstop hhooks hsession] at h
      unfold writing at h
      split at h
      · rename_i g hfault
        cases h
        obtain ⟨rfl, _⟩ := Call.effect_eq_error hlive hfault
        exact ⟨rfl, rfl, rfl, rfl⟩
      · cases h
      · split at h
        · rename_i hwrite
          cases h
          obtain rfl := updateNow_eq_error hwrite
          exact ⟨isReplacement_of_update hwrite, rfl, rfl, rfl⟩
        · cases h

end

/-- An operation that fails leaves no more behind than an access does. -/
theorem access_of_serve_error (hhooks : e.Undisturbed) (hpassive : e.Passive) {c : Call}
    (h : runOp act (Manager.serve id ctx c) e = (.error f, e')) : Access e id ctx (.error f) e' := by
  have haccess := access_getSession act hhooks hpassive id ctx
  cases hsession : runOp act (Manager.getSession id ctx) e with
  | mk o e₁ =>
    rw [hsession] at haccess
    cases o with
    | error g =>
      rw [runOp_serve_of_error hsession] at h
      cases h
      exact haccess
    | ok r =>
      cases haccess with
      | found hread hlive huntouched =>
        obtain ⟨_, _, hhooks₁⟩ := getSession_found hhooks hsession
        have hread₁ : e₁.store.read id = some r := by rw [huntouched.store, hread]
        obtain ⟨hfault, hfailed⟩ := untouched_of_serve_error hhooks₁ hsession hread₁ hlive c h
        exact .refused hfault (huntouched.trans hfailed)

/-! ## All operations -/

/-- **Failed operations.** Whichever creations and writes the store refuses, and as long as listeners ask
for nothing: a start that fails changes nothing, an operation that fails changes nothing or has marked the
session that it was to work on, which was timed out, and that is announced and counted once. Where the
operation fails because the session was replaced, the new one is as it began. -/
theorem failed_operations_leave_store (act : Act) {e : Engine} (hhooks : e.Undisturbed)
    (hpassive : e.Passive) :
    (∀ host f e', runOp act (Manager.start host) e = (.error f, e') → Untouched e e') ∧
    (∀ id ctx c f e', runOp act (Manager.serve id ctx c) e = (.error f, e') →
      f.isReplacement = false →
        Untouched e e' ∨ ∃ r, e.store.read id = some r ∧ r.validity e.clock.now = .timedOut ∧
          Validated e e' r e.clock.now) ∧
    ∀ id ctx c old new cause e',
      runOp act (Manager.serve id ctx c) e = (.error (.replaced old new cause), e') →
        old = id ∧ ∃ r start, e.store.read id = some r ∧ r.validity e.clock.now ≠ .valid ∧
          Superseded e e' r e.clock.now (Record.new new start (r.host <|> ctx.host) e.timeout) ∧
          e'.store.read new = some (Record.new new start (r.host <|> ctx.host) e.timeout) := by
  refine ⟨?_, ?_, ?_⟩
  · intro host f e' h
    obtain ⟨g, e₁, hstart, _, huntouched⟩ | ⟨new, start, e₁, hstart, _⟩ :=
      runOp_start_cases act hhooks hpassive host
    · rw [hstart] at h
      cases h
      exact huntouched
    · rw [hstart] at h
      cases h
  · intro id ctx c f e' h hfault
    cases access_of_serve_error hhooks hpassive h with
    | refused _ huntouched => exact .inl huntouched
    | marked _ hread hnow hvalidated => exact .inr ⟨_, hread, hnow, hvalidated⟩
    | superseded => cases hfault
  · intro id ctx c old new cause e' h
    cases access_of_serve_error hhooks hpassive h with
    | refused hfault _ => cases hfault
    | marked hfault _ _ _ => cases hfault
    | superseded hread hnow hsuperseded =>
      obtain ⟨lines, hcreate⟩ := hsuperseded.store
      obtain ⟨_, hnew, _⟩ := Store.read_create hcreate
      exact ⟨rfl, _, _, hread, hnow, hsuperseded, hnew⟩

/-- A session that is timed out is touched, and no replacement can be stored: it is marked, and the touch
leaves nothing else behind. -/
theorem failed_operations_leave_store_when_nothing_is_created :
    ∃ (e e' : Engine) (r : Record),
      e = after 1 [.start none, .advanceClock 1800001, .failCreate true]
        (blank {} (.still 7) (fun n => (0, n.toUInt64)) .silent) ∧
      r = Record.new (Id.ofWords (0, 0)) 7 none 1800000 ∧
      runOp (perform 0) (Manager.serve r.id ⟨none⟩ .touch) e =
        (.error (Disturbance.fault "create"), e') ∧
      r.validity e.clock.now = .timedOut ∧ Validated e e' r e.clock.now ∧
      e'.store.read r.id = some r.marked := by
  let e := after 1 [.start none, .advanceClock 1800001, .failCreate true]
    (blank {} (.still 7) (fun n => (0, n.toUInt64)) .silent)
  let r := Record.new (Id.ofWords (0, 0)) 7 none 1800000
  have hhooks : e.Undisturbed := List.isEmpty_iff.1 (by decide +kernel)
  have hpassive : e.Passive := passive_of_isEmpty (by decide +kernel)
  have hfault : (runOp (perform 0) (Manager.serve r.id ⟨none⟩ .touch) e).1 =
      .error (Disturbance.fault "create") := by decide +kernel
  have hupdates : (runOp (perform 0) (Manager.serve r.id ⟨none⟩ .touch) e).2.store.updates ≠
      e.store.updates := by decide +kernel
  have hread : e.store.read r.id = some r := by decide +kernel
  cases hrun : runOp (perform 0) (Manager.serve r.id ⟨none⟩ .touch) e with
  | mk o e' =>
    rw [hrun] at hfault hupdates
    cases hfault
    obtain huntouched | ⟨r', hread', hnow, hvalidated⟩ :=
      (failed_operations_leave_store (perform 0) hhooks hpassive).2.1 _ _ _ _ _ hrun rfl
    · exact absurd (congrArg Store.updates huntouched.store) hupdates
    · rw [hread] at hread'
      cases hread'
      refine ⟨e, e', r, rfl, rfl, hrun, hnow, hvalidated, ?_⟩
      rw [hvalidated.store, Store.read_validated, if_pos ⟨rfl, hnow⟩]

end Engine
end Sessions
