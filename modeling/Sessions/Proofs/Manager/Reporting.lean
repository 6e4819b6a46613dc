import Mathlib.Data.List.TakeWhile
import Sessions.Proofs.Manager.Session

/-!
# Sessions.Proofs.Manager.Reporting

Why a session cannot be used, asked in three ways: of its record, of the manager by its id, and of the store
by writing a live copy over it. Where nothing is started in the place of invalid sessions the three give one
fault, which depends on the record as it was stored and on nothing that the access did to it.

* `Record.validate_of_endFault`: an ended record gives the fault of its end at any time.
* `Fault.retold`: a fault told by one who only heard of it. It looks the same (`message_retold`).
* `Engine.runOp_getSession_of_stored`: the manager and the record.
* `Engine.paths_report_alike`: all of them.
-/

namespace Sessions

namespace Fault

/-- The fault of a session in the words that were shown of it, which end at the first zero byte. -/
def retold : Fault → Fault
  | .stopped id how => .stopped id (.told (Fault.stopped id how).message)
  | .expired id why => .expired id (.told (Fault.expired id why).message)
  | f => f

theorem message_retold (f : Fault) : f.retold.message = f.message := by
  have hcut : ∀ t : Text, t.untilNul.untilNul = t.untilNul := by
    intro t
    exact List.takeWhile_idem
  cases f with
  | stopped id how => exact hcut _
  | expired id why => exact hcut _
  | _ => rfl

end Fault

namespace Record

variable {r : Record} {now : Timestamp} {why : Fault}

theorem validate_of_endFault (h : r.endFault? = some why) (now : Timestamp) :
    r.validate now = .error why := by
  unfold validate
  cases hnow : r.validity now with
  | stopped | expired => simp only [h]
  | valid =>
    rw [endFault?_eq_none_iff.2 (isTerminal_of_validity (.inl hnow))] at h
    cases h
  | timedOut =>
    rw [endFault?_eq_none_iff.2 (isTerminal_of_validity (.inr hnow))] at h
    cases h

theorem validate_eq_ok_iff : r.validate now = .ok () ↔ r.validity now = .valid := by
  unfold validate
  cases hnow : r.validity now with
  | valid => simp
  | timedOut => simp
  | stopped | expired =>
    have hended : r.validity now = .stopped ∨ r.validity now = .expired := by simp [hnow]
    obtain ⟨f, hf⟩ := exists_endFault hended
    simp [hf]

/-- A stopped session gives the fault of a stop, and every other one that of an expiry. -/
theorem validate_eq_error_kind (h : r.validate now = .error why) :
    (r.isStopped = true ∧ ∃ how, why = .stopped r.id how) ∨
      (r.isStopped = false ∧ ∃ cause, why = .expired r.id cause) := by
  have hnow : r.validity now ≠ .valid := by
    intro hvalid
    rw [validate_eq_ok_iff.2 hvalid] at h
    cases h
  obtain ⟨_, code, hwhy, hcode, hkind⟩ := Engine.exists_reason hnow
  rw [h, Except.error.injEq] at hwhy
  subst hwhy
  obtain ⟨how, rfl⟩ | ⟨cause, rfl⟩ := validate_eq_error h
  · cases hstop : r.isStopped with
    | true => exact .inl ⟨rfl, how, rfl⟩
    | false =>
      -- the code of the fault tells the two kinds apart
      rw [hstop] at hkind
      cases hcode.trans (congrArg some hkind)
  · cases hstop : r.isStopped with
    | true =>
      rw [hstop] at hkind
      cases hcode.trans (congrArg some hkind)
    | false => exact .inr ⟨rfl, cause, rfl⟩

end Record

namespace Engine

variable {act : Act} {e : Engine} {id : Id} {ctx : Context} {r : Record}

/-- The manager hands out the stored record, or fails as the record itself does. -/
theorem runOp_getSession_of_stored (act : Act) (ctx : Context) (hid : id ≠ [])
    (hcalm : e.disturbance = .calm) (hpassive : e.Passive) (hauto : e.autoCreate = false)
    (hok : e.ensureBackground.1 = .ok ()) (hread : e.store.read id = some r) :
    (runOp act (Manager.getSession id ctx) e).1 = (r.validate e.clock.now).map fun _ => r := by
  have hens : e.ensureBackground = (.ok (), e.ensureBackground.2) := Prod.ext hok rfl
  cases hvalidate : r.validate e.clock.now with
  | ok u =>
    have hnow := Record.validate_eq_ok_iff.1 hvalidate
    rw [runOp_getSession_of_valid act ctx hid hcalm hens hread hnow]
    rfl
  | error why =>
    -- with listeners that ask for nothing the setting is the same behind the expiry
    have hoff : (e.judged act r).autoCreate = false := by
      rw [(poised_judged act hpassive hens r).autoCreate, hauto]
    rw [runOp_getSession_of_off act ctx hid hcalm hens hread hvalidate hoff]
    rfl

/-- **One fault for one session.** On an undisturbed store, with nothing started in the place of invalid
sessions and with listeners that ask for nothing, take a stored record. A background that refuses stands in
the way of every access, which then changes nothing. Otherwise the manager hands out the record if it is
valid by itself, and else fails with the very fault that the record gives, and so does every other operation
by id. The fault is that of a stop exactly for a stopped session, and of an expiry for any other one; told
anew from what was shown of it, it looks the same. If the session ended, then the fault is the same at any
time, and the store gives it to whoever would write a live copy over the record. -/
theorem paths_report_alike (act : Act) {e : Engine} {id : Id} {r : Record} (ctx : Context)
    (hid : id ≠ []) (hcalm : e.disturbance = .calm) (hpassive : e.Passive)
    (hauto : e.autoCreate = false) (hread : e.store.read id = some r) :
    (∀ f, e.ensureBackground.1 = .error f →
      (runOp act (Manager.getSession id ctx) e).1 = .error f ∧
        Untouched e (runOp act (Manager.getSession id ctx) e).2) ∧
    (e.ensureBackground.1 = .ok () →
      (runOp act (Manager.getSession id ctx) e).1 = (r.validate e.clock.now).map (fun _ => r) ∧
      ∀ why, r.validate e.clock.now = .error why →
        ∀ c, (runOp act (Manager.serve id ctx c) e).1 = .error why) ∧
    (∀ now why, r.validate now = .error why → why.retold.message = why.message ∧
      ((r.isStopped = true ∧ ∃ how, why = .stopped id how) ∨
        (r.isStopped = false ∧ ∃ cause, why = .expired id cause))) ∧
    (r.isTerminal = true → ∃ why, (∀ now, r.validate now = .error why) ∧
      ∀ copy : Record, copy.id = id → copy.isTerminal = false → e.store.update copy = .error why) := by
  have hrid : r.id = id := Roster.id_of_get? hread
  refine ⟨fun f hf => ?_, fun hok => ?_, fun now why hwhy => ?_, fun hend => ?_⟩
  · have hens : e.ensureBackground = (.error f, e.ensureBackground.2) := Prod.ext hf rfl
    rw [runOp_getSession_of_ensure_error hid hens]
    exact ⟨rfl, rfl, rfl, rfl⟩
  · have hsession := runOp_getSession_of_stored act ctx hid hcalm hpassive hauto hok hread
    refine ⟨hsession, fun why hwhy c => ?_⟩
    rw [hwhy] at hsession
    rw [runOp_serve_of_error (Prod.ext hsession rfl) c]
  · rw [← hrid]
    exact ⟨why.message_retold, Record.validate_eq_error_kind hwhy⟩
  · obtain ⟨why, hwhy⟩ := Record.exists_endFault_of_terminal hend
    refine ⟨why, Record.validate_of_endFault hwhy, fun copy hcopy hlive => ?_⟩
    have hstored : e.store.read copy.id = some r := by rw [hcopy, hread]
    obtain ⟨f, hf, hrefused⟩ := Store.exists_update_eq_error hstored hend hlive
    rw [hwhy, Option.some.injEq] at hf
    rw [hrefused, hf]

/-- Of two sessions one was stopped and the other one is timed out; there is a zero byte in its id. -/
theorem paths_report_alike_on_two_ends :
    ∃ e : Engine,
      e = after 1 [.store (.put ⟨Record.new "s" 7 none 1800000, [.stop 9]⟩),
          .store (.put ⟨Record.new [115, 0, 116] 7 none 5, []⟩)]
        (blank { life := { autoCreate := false } } (.still 13) (fun n => (0, n.toUInt64)) .silent) ∧
      (runOp (perform 0) (Manager.getSession "s" ⟨none⟩) e).1 = .error (.stopped "s" (.atTime 9)) ∧
      e.store.update (Record.new "s" 7 none 1800000) = .error (.stopped "s" (.atTime 9)) ∧
      (runOp (perform 0) (Manager.serve [115, 0, 116] ⟨none⟩ .keys) e).1 =
        .error (.expired [115, 0, 116] (.idle 7 13 5)) := by
  let e := after 1 [.store (.put ⟨Record.new "s" 7 none 1800000, [.stop 9]⟩),
      .store (.put ⟨Record.new [115, 0, 116] 7 none 5, []⟩)]
    (blank { life := { autoCreate := false } } (.still 13) (fun n => (0, n.toUInt64)) .silent)
  let stopped : Record :=
    { Record.new "s" 7 none 1800000 with stopTime := some 9, lastAccess := 9 }
  let idle := Record.new [115, 0, 116] 7 none 5
  have hpassive : e.Passive := passive_of_isEmpty (by decide +kernel)
  have hstopped : e.store.read "s" = some stopped := by decide +kernel
  have hidle : e.store.read [115, 0, 116] = some idle := by decide +kernel
  have hnow : e.clock.now = 13 := by decide +kernel
  have hdue : idle.validity 13 = .timedOut := by decide +kernel
  have hexpiry : idle.validate e.clock.now = .error (.expired [115, 0, 116] (.idle 7 13 5)) := by
    rw [hnow, Record.validate, hdue]
    rfl
  obtain ⟨_, hstop, _, hended⟩ :=
    @paths_report_alike (perform 0) e "s" stopped ⟨none⟩ (by decide) rfl hpassive rfl hstopped
  obtain ⟨_, hexpire, _⟩ :=
    @paths_report_alike (perform 0) e [115, 0, 116] idle ⟨none⟩ (by decide) rfl hpassive rfl hidle
  obtain ⟨why, hwhy, hrefused⟩ := hended rfl
  have hend : stopped.endFault? = some (.stopped "s" (.atTime 9)) := rfl
  have hsame := (Record.validate_of_endFault hend 13).symm.trans (hwhy 13)
  cases hsame
  have hsession := (hstop rfl).1
  rw [hwhy] at hsession
  exact ⟨e, rfl, hsession, hrefused _ rfl rfl, (hexpire rfl).2 _ hexpiry .keys⟩

/-- Behind a timer that cannot be switched on the manager fails for a session that is valid by itself. -/
theorem valid_session_behind_refusing_timer :
    ∃ (e₀ e : Engine) (r : Record),
      Engine.new { life := { autoCreate := false } } (.still 7) (fun n => (0, n.toUInt64)) .silent =
        .ok e₀ ∧
      e = after 1 [.start none, .setTimer (some "F") (.standIn .onFails)] e₀ ∧
      r.id ≠ [] ∧ e.disturbance = .calm ∧ e.Passive ∧ e.autoCreate = false ∧
      e.store.read r.id = some r ∧ r.validate e.clock.now = .ok () ∧
      (runOp (perform 0) (Manager.getSession r.id ⟨none⟩) e).1 =
        .error (.foreign "no threads left") ∧
      ¬((∃ x, (runOp (perform 0) (Manager.getSession r.id ⟨none⟩) e).1 = .ok x) ↔
        r.validate e.clock.now = .ok ()) := by
  let e := after 1 [.start none, .setTimer (some "F") (.standIn .onFails)]
    (blank { life := { autoCreate := false } } (.still 7) (fun n => (0, n.toUInt64)) .silent)
  let r := Record.new (Id.ofWords (0, 0)) 7 none 1800000
  have hpassive : e.Passive := passive_of_isEmpty (by decide +kernel)
  have hread : e.store.read r.id = some r := by decide +kernel
  have hnow : r.validity e.clock.now = .valid := by decide +kernel
  have hfailed : (runOp (perform 0) (Manager.getSession r.id ⟨none⟩) e).1 =
      .error (.foreign "no threads left") := by decide +kernel
  have hvalidate := Record.validate_eq_ok_iff.2 hnow
  refine ⟨_, e, r, rfl, rfl, by decide, rfl, hpassive, rfl, hread, hvalidate, hfailed, ?_⟩
  intro hiff
  obtain ⟨x, hx⟩ := hiff.2 hvalidate
  rw [hfailed] at hx
  cases hx

end Engine
end Sessions
