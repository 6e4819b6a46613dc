import Sessions.Proofs.Engine.Undisturbed
import Sessions.Proofs.Store.Contents

/-!
# Sessions.Proofs.Engine.Faults

Which faults the parts of an engine give: the background, the host policy, the store, and whatever
disturbs the store.

* `ensureBackground_eq_error`, `Admission.check_eq_error`: in front of a start.
* `Store.create_eq_error`, `Store.update_eq_error`: in the store.
* `createNow_fault`, `updateNow_fault`: the same behind a disturbance.
-/

namespace Sessions

variable {f : Fault}

/-! ## The background -/

theorem Timer.enable_eq_error {t t' : Timer} {lines : List LogLine}
    (h : t.enable = (.error f, t', lines)) : f = .foreign "no threads left" := by
  unfold enable at h
  split at h
  · cases h
  · cases h
    rfl
  · cases h

theorem Sweeper.new?_eq_error {interval : Millis} (h : Sweeper.new? true interval = .error f) :
    f = Fault.interval interval := by
  rw [new?, if_neg (by decide)] at h
  split at h
  · cases h
    rfl
  · cases h

namespace Background

theorem switchOn_eq_error {b : Background} {t : Timer} (h : (b.switchOn t).1 = .error f) :
    f = .foreign "no threads left" := by
  unfold switchOn at h
  split at h
  · cases h
  · rename_i g t' lines henable
    cases h
    exact Timer.enable_eq_error henable

/-- The background refuses because a timer cannot be switched on, or because there is none and its
interval is not positive. -/
theorem ensure_eq_error {b : Background} (h : b.ensure.1 = .error f) :
    f = .foreign "no threads left" ∨ f = Fault.interval b.interval := by
  unfold ensure at h
  split at h
  · cases h
  · split at h
    · split at h
      · cases h
      · exact .inl (switchOn_eq_error h)
    · split at h
      · rename_i g hnew
        cases h
        exact .inr (Sweeper.new?_eq_error hnew)
      · exact .inl (switchOn_eq_error h)

end Background

theorem Engine.ensureBackground_eq_error {e : Engine} (h : e.ensureBackground.1 = .error f) :
    f = .foreign "no threads left" ∨ f = Fault.interval e.background.interval :=
  Background.ensure_eq_error h

/-! ## The host policy -/

theorem Admission.check_eq_error {a : Admission} {host : Option Text} (h : a.check host = .error f) :
    (∃ refused, f = .hostRefused refused) ∨ (∃ text, f = Fault.hostMalformed text) ∨
      f = Fault.hostMissing := by
  unfold check at h
  split at h
  · split at h
    · split at h <;> cases h
      exact .inl ⟨_, rfl⟩
    · cases h
      exact .inr (.inl ⟨_, rfl⟩)
  · split at h
    · cases h
      exact .inr (.inr rfl)
    · split at h <;> cases h
      exact .inl ⟨_, rfl⟩

/-! ## The store -/

namespace Store

variable {s : Store} {r : Record}

/-- A creation is refused for an id that is taken, or where there is no room and nobody ended. -/
theorem create_eq_error (h : s.create r = .error f) :
    s.contains r.id = true ∧ f = Fault.duplicate r.id ∨
      s.isFull = true ∧ Roster.oldestEnded s.records.list = none ∧ f = Fault.storeFull s.limit := by
  unfold create at h
  split at h
  · rename_i htaken
    cases h
    exact .inl ⟨htaken, rfl⟩
  · split at h
    · rename_i hfull
      unfold evict? at h
      cases hv : Roster.oldestEnded s.records.list with
      | some v =>
        rw [hv] at h
        cases h
      | none =>
        rw [hv] at h
        cases h
        exact .inr ⟨hfull, rfl, rfl⟩
    · cases h

/-- A write is refused for an id that is not there, or where it would bring back a record that ended. -/
theorem update_eq_error (h : s.update r = .error f) :
    f = .unknown r.id ∨ ∃ stored, s.read r.id = some stored ∧ stored.endFault? = some f := by
  unfold update at h
  split at h
  · cases h
    exact .inl rfl
  · rename_i stored hstored
    split at h
    · rename_i g hfault
      cases h
      unfold revivalFault? at hfault
      split at hfault
      · cases hfault
      · exact .inr ⟨stored, hstored, hfault⟩
    · cases h

end Store

namespace Engine

variable {e e' : Engine} {r : Record}

theorem guard_eq_error {failing : Bool} {operation : Text}
    (h : Disturbance.guard failing operation = .error f) : f = Disturbance.fault operation := by
  unfold Disturbance.guard at h
  split at h
  · cases h
    rfl
  · cases h

theorem createNow_fault (h : e.createNow r = (.error f, e')) :
    f = Disturbance.fault "create" ∨ e.store.create r = .error f := by
  unfold createNow at h
  split at h
  · rename_i g hguard
    cases h
    exact .inl (guard_eq_error hguard)
  · split at h
    · rename_i g hcreate
      cases h
      exact .inr hcreate
    · cases h

theorem updateNow_fault (h : e.updateNow r = (.error f, e')) :
    f = Disturbance.fault "update" ∨ e.store.update r = .error f := by
  unfold updateNow at h
  split at h
  · rename_i g hguard
    cases h
    exact .inl (guard_eq_error hguard)
  · split at h
    · rename_i g hupdate
      cases h
      exact .inr hupdate
    · cases h

end Engine
end Sessions
