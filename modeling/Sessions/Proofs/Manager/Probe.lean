import Sessions.Proofs.Engine.Faults
import Sessions.Proofs.Manager.Session

/-!
# Sessions.Proofs.Manager.Probe

When the probe of a manager answers, and when it fails. It takes two kinds of faults for a "no". What
else can go wrong on the way to a replacement gets through: a host that is no address, the lack of a
host where one is required.

* `isValid_eq_probed`: the probe is the access with those faults turned into an answer.
* `start_eq_error_iff`: how the start of a replacement fails, with listeners that ask for nothing.
* `probe_verdict`: the whole, for every id, every request and every content of the store.
-/

namespace Sessions

namespace Fault

/-- Faults that a probe takes for a "no": the session cannot be used, or the host that its replacement
would be started for is refused. -/
def declines : Fault → Bool
  | .hostRefused _ => true
  | f => f.isInvalidSession

theorem declines_hostMalformed (h : Text) : (hostMalformed h).declines = false := by
  unfold hostMalformed
  split <;> rfl

end Fault

theorem Record.declines_of_validate {r : Record} {now : Timestamp} {why : Fault}
    (h : r.validate now = .error why) : why.declines = true := by
  obtain ⟨how, rfl⟩ | ⟨cause, rfl⟩ := validate_eq_error h <;> rfl

/-- No session can be started for this host, whatever a filter says. -/
def Admission.Objects (a : Admission) (host : Option Text) (f : Fault) : Prop :=
  (∃ h, host = some h ∧ Host.accepts h = false ∧ f = Fault.hostMalformed h) ∨
    host = none ∧ a.requireHost = true ∧ f = Fault.hostMissing

theorem Admission.declines_of_filter {agrees : Bool} {h : Text} {f : Fault}
    (hf : (if agrees then .ok () else .error (.hostRefused h) : Except Fault Unit) = .error f) :
    f.declines = true := by
  split at hf
  · cases hf
  · cases hf
    rfl

/-- The faults of the host policy that a probe does not take for a "no". -/
theorem Admission.objects_iff {a : Admission} {host : Option Text} {f : Fault} :
    a.Objects host f ↔ a.check host = .error f ∧ f.declines = false := by
  unfold Objects check
  cases host with
  | some h =>
    cases haccepts : Host.accepts h with
    | false =>
      have hdeclines := Fault.declines_hostMalformed h
      simp only [Option.some.injEq, reduceCtorEq, false_and, or_false, exists_eq_left', haccepts,
        true_and, Bool.false_eq_true, if_false, Except.error.injEq]
      exact ⟨fun hf => ⟨hf.symm, hf ▸ hdeclines⟩, fun hf => hf.1.symm⟩
    | true =>
      simp only [Option.some.injEq, reduceCtorEq, false_and, or_false, exists_eq_left', haccepts,
        Bool.true_eq_false, if_true, false_iff]
      rintro ⟨hcheck, hdeclines⟩
      rw [declines_of_filter hcheck] at hdeclines
      cases hdeclines
  | none =>
    cases hrequired : a.requireHost with
    | true =>
      simp only [reduceCtorEq, false_and, exists_false, true_and, false_or, if_true,
        Except.error.injEq]
      exact ⟨fun hf => ⟨hf.symm, hf ▸ rfl⟩, fun hf => hf.1.symm⟩
    | false =>
      simp only [reduceCtorEq, false_and, exists_false, true_and, Bool.false_eq_true, or_false,
        if_false, false_iff]
      rintro ⟨hcheck, hdeclines⟩
      rw [declines_of_filter hcheck] at hdeclines
      cases hdeclines

/-- What a probe answers for the outcome of an access. -/
def Manager.probed {α : Type} : Except Fault α → Except Fault Bool
  | .ok _ => .ok true
  | .error f => if f.declines then .ok false else .error f

theorem Manager.probed_eq_true_iff {α : Type} {o : Except Fault α} :
    probed o = .ok true ↔ ∃ a, o = .ok a := by
  cases o with
  | ok a => simp [probed]
  | error f => cases hdeclines : f.declines <;> simp [probed, hdeclines]

theorem Manager.probed_eq_error_iff {α : Type} {o : Except Fault α} {f : Fault} :
    probed o = .error f ↔ o = .error f ∧ f.declines = false := by
  cases o with
  | ok a => simp [probed]
  | error g =>
    unfold probed
    by_cases hgf : g = f
    · subst hgf
      cases hdeclines : g.declines <;> simp [hdeclines]
    · cases hdeclines : g.declines <;> simp [hdeclines, hgf]

namespace Engine

variable {act : Act} {e e' : Engine} {id : Id} {ctx : Context} {r : Record} {f : Fault}

theorem isValid_eq_probed (act : Act) (hid : id ≠ []) (ctx : Context) (e : Engine) :
    (runOp act (Manager.isValid id ctx) e).1 =
      Manager.probed (runOp act (Manager.getSession id ctx) e).1 := by
  rw [Manager.isValid, if_neg hid, runOp_bind_ok (runOp_attempt _)]
  cases hsession : runOp act (Manager.getSession id ctx) e with
  | mk o e' =>
    cases o with
    | ok r =>
      have hvalidate : runOp act (Manager.validateSession id ctx) e = (.ok (), e') :=
        runOp_bind_ok hsession
      rw [hvalidate]
      rfl
    | error f =>
      have hvalidate : runOp act (Manager.validateSession id ctx) e = (.error f, e') :=
        runOp_bind_error hsession
      rw [hvalidate]
      cases f <;> rfl

/-! ## Faults on the way -/

/-- A background that refuses is never taken for a "no". -/
theorem not_declines_of_ensure (h : e.ensureBackground.1 = .error f) : f.declines = false := by
  obtain rfl | rfl := ensureBackground_eq_error h <;> rfl

theorem createNow_of_stored (hcalm : e.disturbance = .calm) {x : Record}
    (h : e.store.read r.id = some x) : e.createNow r = (.error (Fault.duplicate r.id), e) := by
  have hguard : Disturbance.guard e.disturbance.createFails "create" = .ok () := by
    rw [hcalm]
    rfl
  unfold createNow
  rw [hguard]
  simp only [Store.create_of_stored h]

/-- Where the id is taken, the start of a replacement fails and leaves no trace but the id. -/
theorem start_of_taken (act : Act) {now : Timestamp} {host : Option Text} (h : Poised e e' r now)
    (hcalm : e.disturbance = .calm) (hcheck : e.admission.check host = .ok ())
    (htaken : e.store.contains e.draw.1 = true) :
    runOp act (Manager.start host) e' = (.error (Fault.duplicate e.draw.1), e'.supplied) := by
  have hundisturbed : e'.Undisturbed := undisturbed_of_calm (h.disturbance.trans hcalm)
  have hcalm' : e'.supplied.disturbance = .calm := h.disturbance.trans hcalm
  have hid : (e'.fresh host).id = e.draw.1 := h.draw
  -- validation marks records, but drops none
  obtain ⟨y, hy⟩ : ∃ y, e'.supplied.store.read (e'.fresh host).id = some y := by
    have hstored : e'.supplied.store = e.store.validated r now := h.validated.store
    obtain ⟨x, hx⟩ := Option.isSome_iff_exists.1 htaken
    rw [hstored, hid, Store.read_validated]
    split
    · exact ⟨_, rfl⟩
    · exact ⟨x, hx⟩
  rw [runOp_start_of_check_ok hundisturbed (ensureBackground_again h.background)
    (by rw [h.admission, hcheck]), createNow_of_stored hcalm' hy, hid]

/-- How a start in the place of an ended session fails: the host may not have one, or the id that is
drawn is taken. -/
theorem start_eq_error_iff (act : Act) {now : Timestamp} {host : Option Text} (h : Poised e e' r now)
    (hcalm : e.disturbance = .calm) (hread : e.store.read id = some r)
    (hnow : r.validity now ≠ .valid) :
    (runOp act (Manager.start host) e').1 = .error f ↔
      e.admission.check host = .error f ∨
        e.admission.check host = .ok () ∧ e.store.contains e.draw.1 = true ∧
          f = Fault.duplicate e.draw.1 := by
  have hens := ensureBackground_again h.background
  cases hcheck : e.admission.check host with
  | error g =>
    rw [runOp_start_of_check_error hens (by rw [h.admission, hcheck])]
    simp
  | ok u =>
    cases hfresh : e.store.read e.draw.1 with
    | none =>
      obtain ⟨e'', hstart, _⟩ := start_of_poised act h hcalm hread hnow hfresh hcheck
      have hcontains : e.store.contains e.draw.1 = false := Roster.contains_eq_false_iff.2 hfresh
      rw [hstart, hcontains]
      simp
    | some x =>
      have htaken := Store.contains_of_read hfresh
      rw [start_of_taken act h hcalm hcheck htaken, htaken]
      simp [eq_comm]

/-! ## The probe -/

/-- How a probe answers, once the background is seen to. Which faults get through depends on how the
start of a replacement ends; with listeners that ask for nothing these can be told beforehand. -/
structure Verdict (act : Act) (e : Engine) (id : Id) (ctx : Context) (o : Except Fault Bool) :
    Prop where
  yes_iff : o = .ok true ↔ ∃ r, e.store.read id = some r ∧ r.validity e.clock.now = .valid
  fault_iff : ∀ f, o = .error f ↔ ∃ r, e.store.read id = some r ∧
    r.validity e.clock.now ≠ .valid ∧ (e.judged act r).autoCreate = true ∧
    (runOp act (Manager.start (r.host <|> ctx.host)) (e.judged act r)).1 = .error f ∧
    f.declines = false
  passive_fault_iff : e.Passive → ∀ f, o = .error f ↔ ∃ r, e.store.read id = some r ∧
    r.validity e.clock.now ≠ .valid ∧ e.autoCreate = true ∧
    (e.admission.Objects (r.host <|> ctx.host) f ∨
      e.admission.check (r.host <|> ctx.host) = .ok () ∧ e.store.contains e.draw.1 = true ∧
        f = Fault.duplicate e.draw.1)

theorem verdict_of_none (hread : e.store.read id = none) : Verdict act e id ctx (.ok false) := by
  refine ⟨?_, fun f => ?_, fun _ f => ?_⟩ <;> simp [hread]

theorem verdict_of_valid (hread : e.store.read id = some r) (hnow : r.validity e.clock.now = .valid) :
    Verdict act e id ctx (.ok true) := by
  refine ⟨?_, fun f => ?_, fun _ f => ?_⟩ <;> simp [hread, hnow]

/-- An access to an ended session, or to one that is timed out, fails; and with a fault that is no "no"
only where its replacement cannot be started. -/
theorem getSession_of_invalid (act : Act) (ctx : Context) (hid : id ≠ [])
    (hcalm : e.disturbance = .calm) (hens : e.ensureBackground = (.ok (), e'))
    (hread : e.store.read id = some r) (hnow : r.validity e.clock.now ≠ .valid) :
    ∃ g, (runOp act (Manager.getSession id ctx) e).1 = .error g ∧
      ∀ f, f.declines = false → (g = f ↔ (e.judged act r).autoCreate = true ∧
        (runOp act (Manager.start (r.host <|> ctx.host)) (e.judged act r)).1 = .error f) := by
  obtain ⟨why, _, hwhy, _, _⟩ := exists_reason hnow
  cases hauto : (e.judged act r).autoCreate with
  | false =>
    refine ⟨why, by rw [runOp_getSession_of_off act ctx hid hcalm hens hread hwhy hauto], ?_⟩
    rintro f hf
    have hne : why ≠ f := fun heq => by
      rw [← heq, Record.declines_of_validate hwhy] at hf
      cases hf
    simp [hne]
  | true =>
    cases hstart : runOp act (Manager.start (r.host <|> ctx.host)) (e.judged act r) with
    | mk o e'' =>
      cases o with
      | error g =>
        refine ⟨g, by rw [runOp_getSession_of_failed act ctx hid hcalm hens hread hwhy hauto hstart],
          fun f _ => ?_⟩
        simp
      | ok fresh =>
        refine ⟨_, by rw [runOp_getSession_of_started act ctx hid hcalm hens hread hwhy hauto hstart],
          ?_⟩
        rintro f hf
        refine ⟨?_, fun h => nomatch h.2⟩
        rintro rfl
        cases hf

theorem verdict_of_invalid (act : Act) (hid : id ≠ []) (hcalm : e.disturbance = .calm)
    (hens : e.ensureBackground = (.ok (), e')) (hread : e.store.read id = some r)
    (hnow : r.validity e.clock.now ≠ .valid) :
    Verdict act e id ctx (Manager.probed (runOp act (Manager.getSession id ctx) e).1) := by
  obtain ⟨g, hsession, hg⟩ := getSession_of_invalid act ctx hid hcalm hens hread hnow
  rw [hsession]
  have hstored : ∀ {p : Record → Prop},
      (∃ x, e.store.read id = some x ∧ x.validity e.clock.now ≠ .valid ∧ p x) ↔ p r := by
    intro p
    refine ⟨?_, fun h => ⟨r, hread, hnow, h⟩⟩
    rintro ⟨x, hx, _, h⟩
    rw [hread, Option.some.injEq] at hx
    exact hx ▸ h
  have hfault : ∀ f, Manager.probed (.error g : Except Fault Record) = .error f ↔
      (e.judged act r).autoCreate = true ∧
        (runOp act (Manager.start (r.host <|> ctx.host)) (e.judged act r)).1 = .error f ∧
        f.declines = false := by
    intro f
    rw [Manager.probed_eq_error_iff, Except.error.injEq, ← and_assoc]
    exact and_congr_left fun hf => hg f hf
  refine ⟨?_, fun f => ?_, fun hpassive f => ?_⟩
  · rw [Manager.probed_eq_true_iff]
    refine ⟨?_, ?_⟩
    · rintro ⟨a, ha⟩
      cases ha
    rintro ⟨x, hx, hvalid⟩
    rw [hread, Option.some.injEq] at hx
    exact absurd (hx ▸ hvalid) hnow
  · rw [hfault, hstored]
  · have hpoised := poised_judged act hpassive hens r
    rw [hfault, hstored, hpoised.autoCreate, start_eq_error_iff act hpoised hcalm hread hnow,
      Admission.objects_iff, or_and_right]
    -- that an id is taken is never a "no"
    have htaken : f = Fault.duplicate e.draw.1 → f.declines = false := by
      rintro rfl
      rfl
    refine and_congr_right fun _ => or_congr_right ⟨fun h => h.1, fun h => ⟨h, htaken h.2.2⟩⟩

/-- **The probe and its faults.** On an undisturbed store, for every request and with any listeners:
the empty id is answered with "no" at once, and a background that refuses stands in the way of every
other one. Otherwise the answer is "yes" exactly for a stored session that is valid; and the probe
fails exactly if the session is to be replaced and the start of its replacement fails with something
else than a refusal of its host. With listeners that ask for nothing that is a host that is no
address, a host that is required and missing, or an id that is drawn a second time. -/
theorem probe_verdict (act : Act) {e : Engine} (ctx : Context) (hcalm : e.disturbance = .calm) :
    (runOp act (Manager.isValid [] ctx) e).1 = .ok false ∧
    ∀ id, id ≠ [] →
      (∀ f, e.ensureBackground.1 = .error f → (runOp act (Manager.isValid id ctx) e).1 = .error f) ∧
      (e.ensureBackground.1 = .ok () →
        Verdict act e id ctx (runOp act (Manager.isValid id ctx) e).1) := by
  refine ⟨rfl, fun id hid => ⟨fun f hf => ?_, fun hok => ?_⟩⟩
  · have hens : e.ensureBackground = (.error f, e.ensureBackground.2) := Prod.ext hf rfl
    rw [isValid_eq_probed act hid, runOp_getSession_of_ensure_error hid hens,
      Manager.probed_eq_error_iff]
    exact ⟨rfl, not_declines_of_ensure hf⟩
  · have hens : e.ensureBackground = (.ok (), e.ensureBackground.2) := Prod.ext hok rfl
    rw [isValid_eq_probed act hid]
    cases hread : e.store.read id with
    | none =>
      rw [runOp_getSession_of_none act ctx hid hcalm hens hread]
      exact verdict_of_none hread
    | some r =>
      by_cases hnow : r.validity e.clock.now = .valid
      · rw [runOp_getSession_of_valid act ctx hid hcalm hens hread hnow]
        exact verdict_of_valid hread hnow
      · exact verdict_of_invalid act hid hcalm hens hread hnow

/-- A session without a host is timed out, and by now a host is required. -/
theorem probe_verdict_on_required_host :
    ∃ e : Engine,
      e = after 1 [.start none, .advanceClock 1800001, .setRequireHost true]
        (blank {} (.still 7) (fun n => (0, n.toUInt64)) .silent) ∧
      (runOp (perform 0) (Manager.isValid (Id.ofWords (0, 0)) ⟨none⟩) e).1 =
        .error Fault.hostMissing ∧
      (runOp (perform 0) (Manager.isValid (Id.ofWords (0, 0)) ⟨some "10.0.0.1"⟩) e).1 ≠ .ok true := by
  let e := after 1 [.start none, .advanceClock 1800001, .setRequireHost true]
    (blank {} (.still 7) (fun n => (0, n.toUInt64)) .silent)
  have hpassive : e.Passive := passive_of_isEmpty (by decide +kernel)
  have hread : e.store.read (Id.ofWords (0, 0)) =
      some (Record.new (Id.ofWords (0, 0)) 7 none 1800000) := by decide +kernel
  have hnow : (Record.new (Id.ofWords (0, 0)) 7 none 1800000).validity e.clock.now ≠ .valid := by
    decide +kernel
  have hverdict := fun ctx => ((@probe_verdict (perform 0) e ctx rfl).2 (Id.ofWords (0, 0))
    (by decide)).2 rfl
  refine ⟨e, rfl, ?_, fun hyes => ?_⟩
  · exact ((hverdict ⟨none⟩).passive_fault_iff hpassive _).2
      ⟨_, hread, hnow, rfl, .inl (.inr ⟨rfl, rfl, rfl⟩)⟩
  · obtain ⟨r, hr, hvalid⟩ := (hverdict ⟨some "10.0.0.1"⟩).yes_iff.1 hyes
    rw [hread, Option.some.injEq] at hr
    exact hnow (hr ▸ hvalid)

/-- The probe of a stopped session fails on a request whose host is no address. -/
theorem probe_fails_on_malformed_host :
    ∃ (e₀ e : Engine),
      Engine.new {} (.still 7) (fun n => (0, n.toUInt64)) .silent = .ok e₀ ∧
      e = after 1 [.start none, .call .stop (.started 1 []) ⟨none⟩] e₀ ∧
      (runOp (perform 0) (Manager.isValid (Id.ofWords (0, 0)) ⟨some "999"⟩) e).1 =
        .error (Fault.hostMalformed "999") ∧
      ¬∃ b, (runOp (perform 0) (Manager.isValid (Id.ofWords (0, 0)) ⟨some "999"⟩) e).1 = .ok b := by
  let e := after 1 [.start none, .call .stop (.started 1 []) ⟨none⟩]
    (blank {} (.still 7) (fun n => (0, n.toUInt64)) .silent)
  have hfailed : (runOp (perform 0) (Manager.isValid (Id.ofWords (0, 0)) ⟨some "999"⟩) e).1 =
      .error (Fault.hostMalformed "999") := by decide +kernel
  refine ⟨_, e, rfl, rfl, hfailed, ?_⟩
  rintro ⟨b, hb⟩
  rw [hfailed] at hb
  cases hb

end Engine
end Sessions
