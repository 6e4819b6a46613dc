import Sessions.Engine.Background

/-!
# Sessions.Proofs.Engine.Background

Switching the background on. A timer that was switched on without a fault is on, so the background
has nothing left to do when it is asked again right away.

* `Timer.isEnabled_of_enable`: a timer that does not refuse is on.
* `Background.timer?_putTimer`: the timer in use is the one that was put there last.
* `Background.ensure_again`: whoever sees to the background a second time finds it as it is.
-/

namespace Sessions

theorem Sweeper.running_enable (s : Sweeper) (caller : Option WorkerId) :
    (s.enable caller).1.running = true := by
  unfold enable
  split
  · rename_i hrunning
    exact hrunning
  · simp only [begin]
    split
    · rename_i hrunning
      exact hrunning
    · rfl

theorem Timer.isEnabled_of_enable {t t' : Timer} {lines : List LogLine}
    (h : t.enable = (.ok (), t', lines)) : t'.isEnabled = true := by
  cases t with
  | thread s =>
    simp only [enable, Prod.mk.injEq] at h
    obtain ⟨_, rfl, _⟩ := h
    exact s.running_enable none
  | standIn temper enabled interval ons offs =>
    cases temper with
    | onFails => simp [enable] at h
    | _ =>
      simp only [enable, Prod.mk.injEq] at h
      obtain ⟨_, rfl, _⟩ := h
      rfl

namespace Background

theorem named?_putNamed (b : Background) (name : Text) (t : Timer) :
    (b.putNamed name t).named? name = some t := by
  simp [putNamed, named?]

theorem timer?_putTimer (b : Background) (t : Timer) : (b.putTimer t).timer? = some t := by
  unfold putTimer
  split
  · rfl
  · rfl
  · rename_i name hcurrent
    have hnamed : (b.putNamed name t).timer? = (b.putNamed name t).named? name := by
      simp [timer?, putNamed, hcurrent]
    rw [hnamed]
    exact b.named?_putNamed name t

theorem ensure_of_active {b : Background} {t : Timer} (hactive : b.active = true)
    (htimer : b.timer? = some t) (hon : t.isEnabled = true) : b.ensure = (.ok (), b, []) := by
  unfold ensure
  split
  · rfl
  · simp [htimer, hactive, hon]

theorem ensure_of_switchOn {b b' : Background} {t : Timer} {lines : List LogLine}
    (h : b.switchOn t = (.ok (), b', lines)) : b'.ensure = (.ok (), b', []) := by
  unfold switchOn at h
  cases henable : t.enable with
  | mk r rest =>
    obtain ⟨t', lines'⟩ := rest
    rw [henable] at h
    cases r with
    | error f => simp at h
    | ok u =>
      simp only [Prod.mk.injEq, true_and] at h
      obtain ⟨rfl, _⟩ := h
      have htimer : ({ b.putTimer t' with active := true } : Background).timer? = some t' :=
        b.timer?_putTimer t'
      exact ensure_of_active rfl htimer (Timer.isEnabled_of_enable henable)

/-- Seen to once without a fault, the background needs nothing the next time. -/
theorem ensure_again {b b' : Background} {lines : List LogLine}
    (h : b.ensure = (.ok (), b', lines)) : b'.ensure = (.ok (), b', []) := by
  unfold ensure at h
  split at h
  · rename_i hoff
    simp only [Prod.mk.injEq, true_and] at h
    obtain ⟨rfl, _⟩ := h
    unfold ensure
    rw [if_pos hoff]
  · split at h
    · rename_i t htimer
      split at h
      · rename_i hon
        simp only [Prod.mk.injEq, true_and] at h
        obtain ⟨rfl, _⟩ := h
        rw [Bool.and_eq_true] at hon
        exact ensure_of_active hon.1 htimer hon.2
      · exact ensure_of_switchOn h
    · split at h
      · simp at h
      · rename_i s _
        cases hswitch : switchOn { b with current := .own (.thread s) } (.thread s) with
        | mk r rest =>
          obtain ⟨b'', lines'⟩ := rest
          rw [hswitch] at h
          simp only [Prod.mk.injEq] at h
          obtain ⟨rfl, rfl, _⟩ := h
          exact ensure_of_switchOn hswitch

end Background
end Sessions
