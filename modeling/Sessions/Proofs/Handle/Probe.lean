import Sessions.Proofs.Handle.Replacement
import Sessions.Proofs.Manager.Probe

/-!
# Sessions.Proofs.Handle.Probe

The probe of a handle beside the probe of its manager, from the same state. Both take it for a "no"
that a session cannot be used. That its replacement is refused for its host is a "no" to the manager
alone: the probe of the handle fails with the refusal.

* `Client.isValid_of_error`: what a probe through a handle makes of a fault.
* `probes_of_error`: both probes of a session that an access fails on.
* `probes_part_on_refused_hosts`: the whole, for any listeners.
-/

namespace Sessions

theorem Client.isValid_of_error {σ : Type} {k : Client σ} {s s' : σ} {f : Fault}
    (h : k.callBound .checkValid s = (.error f, s')) (hf : f.isReplacement = false) :
    (k.isValid s).1 = if f.isInvalidSession then .ok false else .error f := by
  have hperform : k.perform .checkValid s = (.error f, s') :=
    persist_of_reissue (reissue_error h hf)
  unfold isValid
  rw [hperform]
  by_cases hinvalid : f.isInvalidSession = true
  · simp only [hinvalid, if_true]
  · simp only [hinvalid, Bool.false_eq_true, if_false]

namespace Engine

variable {act : Act} {e e' : Engine} {name : Text} {h : Handle} {r : Record} {f : Fault}

theorem client_handle (act : Act) (hheld : e.handles.lookup name = some h) (bound : Handle) :
    (client act name bound).handle e = h := by
  simp only [client, hheld, Option.getD_some]

theorem probes_of_error (hheld : e.handles.lookup name = some h) (hid : h.id ≠ [])
    (hsession : runOp act (Manager.getSession h.id h.context) e = (.error f, e'))
    (hf : f.isReplacement = false) :
    (runOp act (Manager.isValid h.id h.context) e).1 =
        (if f.declines then .ok false else .error f) ∧
      ((client act name h).isValid e).1 =
        if f.isInvalidSession then .ok false else .error f := by
  have hcall : (client act name h).callBound .checkValid e = (.error f, e') := by
    rw [Client.callBound, client_handle act hheld]
    exact runOp_bind_error hsession
  refine ⟨?_, Client.isValid_of_error hcall hf⟩
  rw [isValid_eq_probed act hid, hsession]
  rfl

/-- **The probes part on refused hosts.** On an undisturbed store and with any listeners, once the
background is seen to: of a session that is unknown, or that is invalid and is not to be replaced, both
probes say "no". If its replacement is refused for its host then the manager's says "no" as well, and
the handle's fails with the refusal; with listeners that ask for nothing, that is if the host policy
refuses. -/
theorem probes_part_on_refused_hosts (act : Act) {e : Engine} {name : Text} {h : Handle}
    (hheld : e.handles.lookup name = some h) (hid : h.id ≠ []) (hcalm : e.disturbance = .calm)
    (hens : e.ensureBackground.1 = .ok ()) :
    (e.store.read h.id = none →
      (runOp act (Manager.isValid h.id h.context) e).1 = .ok false ∧
        ((client act name h).isValid e).1 = .ok false) ∧
    ∀ r, e.store.read h.id = some r → r.validity e.clock.now ≠ .valid →
      ((e.judged act r).autoCreate = false →
        (runOp act (Manager.isValid h.id h.context) e).1 = .ok false ∧
          ((client act name h).isValid e).1 = .ok false) ∧
      ∀ host,
        ((e.judged act r).autoCreate = true ∧
            (runOp act (Manager.start (r.host <|> h.context.host)) (e.judged act r)).1 =
              .error (.hostRefused host) ∨
          e.Passive ∧ e.autoCreate = true ∧
            e.admission.check (r.host <|> h.context.host) = .error (.hostRefused host)) →
        (runOp act (Manager.isValid h.id h.context) e).1 = .ok false ∧
          ((client act name h).isValid e).1 = .error (.hostRefused host) := by
  have hens : e.ensureBackground = (.ok (), e.ensureBackground.2) := Prod.ext hens rfl
  refine ⟨fun hread => ?_, fun r hread hnow => ⟨fun hauto => ?_, fun host hrefused => ?_⟩⟩
  · have hsession := runOp_getSession_of_none act h.context hid hcalm hens hread
    exact probes_of_error hheld hid hsession rfl
  · obtain ⟨why, _, hwhy, _, _⟩ := exists_reason hnow
    have hsession := runOp_getSession_of_off act h.context hid hcalm hens hread hwhy hauto
    obtain ⟨how, rfl⟩ | ⟨cause, rfl⟩ := Record.validate_eq_error hwhy <;>
      exact probes_of_error hheld hid hsession rfl
  · obtain ⟨why, _, hwhy, _, _⟩ := exists_reason hnow
    -- with passive listeners the start depends on nothing but the host policy
    have hstart : (e.judged act r).autoCreate = true ∧
        (runOp act (Manager.start (r.host <|> h.context.host)) (e.judged act r)).1 =
          .error (.hostRefused host) := by
      rcases hrefused with hstart | ⟨hpassive, hauto, hcheck⟩
      · exact hstart
      · have hpoised := poised_judged act hpassive hens r
        rw [hpoised.autoCreate, start_eq_error_iff act hpoised hcalm hread hnow]
        exact ⟨hauto, .inl hcheck⟩
    have hsession := runOp_getSession_of_failed act h.context hid hcalm hens hread hwhy hstart.1
      (Prod.ext hstart.2 rfl)
    exact probes_of_error hheld hid hsession rfl

/-- A handle stands for a stopped session without a host, and is asked on behalf of a refused one. -/
theorem probes_part_on_refused_request :
    ∃ e : Engine,
      e = after 1 [.start none, .call .stop (.started 1 []) ⟨none⟩,
          .setFilter (some (Admission.startsWith ["192."] false)),
          .bind "h" (.started 1 []) ⟨some "10.0.0.1"⟩]
        (blank {} (.still 7) (fun n => (0, n.toUInt64)) .silent) ∧
      ∃ h, e.handles.lookup ("h" : Text) = some h ∧
        (runOp (perform 0) (Manager.isValid h.id h.context) e).1 = .ok false ∧
        ((client (perform 0) "h" h).isValid e).1 = .error (.hostRefused "10.0.0.1") := by
  let e := after 1 [.start none, .call .stop (.started 1 []) ⟨none⟩,
      .setFilter (some (Admission.startsWith ["192."] false)),
      .bind "h" (.started 1 []) ⟨some "10.0.0.1"⟩]
    (blank {} (.still 7) (fun n => (0, n.toUInt64)) .silent)
  let h : Handle := ⟨⟨some "10.0.0.1"⟩, Id.ofWords (0, 0), 0, none, none⟩
  let r : Record := { Record.new (Id.ofWords (0, 0)) 7 none 1800000 with stopTime := some 7 }
  have hpassive : e.Passive := passive_of_isEmpty (by decide +kernel)
  have hread : e.store.read h.id = some r := by decide +kernel
  have hheld : e.handles.lookup ("h" : Text) = some h := by decide +kernel
  have hcheck : e.admission.check (r.host <|> h.context.host) = .error (.hostRefused "10.0.0.1") := by
    decide +kernel
  have hcalm : e.disturbance = .calm := eq_calm (by decide +kernel)
  have hens : e.ensureBackground.1 = .ok () := by decide +kernel
  have hauto : e.autoCreate = true := by decide +kernel
  have hprobes := probes_part_on_refused_hosts (perform 0) hheld (by decide) hcalm hens
  exact ⟨e, rfl, h, hheld,
    (hprobes.2 r hread (by decide +kernel)).2 "10.0.0.1" (.inr ⟨hpassive, hauto, hcheck⟩)⟩

/-- The manager says of a stopped session that it is not valid, as its own host is refused by now; the
probe of a handle for it fails. -/
theorem probe_of_handle_fails_on_refused_host :
    ∃ (e₀ e : Engine) (h : Handle),
      Engine.new {} (.still 7) (fun n => (0, n.toUInt64)) .silent = .ok e₀ ∧
      e = after 1 [.start (some "10.0.0.1"), .call .stop (.started 1 []) ⟨none⟩,
        .setFilter (some (Admission.startsWith ["192."] false)),
        .bind "h" (.started 1 []) ⟨none⟩] e₀ ∧
      e.handles.lookup ("h" : Text) = some h ∧
      (runOp (perform 0) (Manager.start (some "10.0.0.1")) e).1 = .error (.hostRefused "10.0.0.1") ∧
      (runOp (perform 0) (Manager.isValid h.id h.context) e).1 = .ok false ∧
      ((client (perform 0) "h" h).isValid e).1 ≠ .ok false := by
  let e := after 1 [.start (some "10.0.0.1"), .call .stop (.started 1 []) ⟨none⟩,
      .setFilter (some (Admission.startsWith ["192."] false)),
      .bind "h" (.started 1 []) ⟨none⟩]
    (blank {} (.still 7) (fun n => (0, n.toUInt64)) .silent)
  exact ⟨_, e, ⟨⟨none⟩, Id.ofWords (0, 0), 0, none, none⟩, rfl, rfl, by decide +kernel,
    by decide +kernel, by decide +kernel, by decide +kernel⟩

end Engine
end Sessions
