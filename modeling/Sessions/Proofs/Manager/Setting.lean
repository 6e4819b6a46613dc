import Sessions.Proofs.Manager.Lookup

/-!
# Sessions.Proofs.Manager.Setting

What the manager leaves alone. A program of it, whatever it does to sessions, changes none of its own
switches and policies, nothing about the handles that clients hold, and no listener.

* `Engine.SameSetting` is that relation between engines.
* `sameSetting_answer`: one question of a program. `sameSetting_runOp`: a whole program, by induction
  on its questions.
-/

namespace Sessions
namespace Engine

/-- Everything about the engine is as it was but for its clock, its sessions, and what is said of
them; the background is as it was if there was nothing to do about it. -/
structure SameSetting (e e' : Engine) : Prop where
  admission : e'.admission = e.admission
  timeout : e'.timeout = e.timeout
  autoCreate : e'.autoCreate = e.autoCreate
  disturbance : e'.disturbance = e.disturbance
  handles : e'.handles = e.handles
  background : e.background.ensure = (.ok (), e.background, []) → e'.background = e.background
  passive : e'.Passive

variable {act : Act} {e e' e'' : Engine}

namespace SameSetting

theorem refl (hpassive : e.Passive) : SameSetting e e :=
  ⟨rfl, rfl, rfl, rfl, rfl, fun _ => rfl, hpassive⟩

theorem trans (h : SameSetting e e') (h' : SameSetting e' e'') : SameSetting e e'' := by
  refine ⟨h'.admission.trans h.admission, h'.timeout.trans h.timeout,
    h'.autoCreate.trans h.autoCreate, h'.disturbance.trans h.disturbance,
    h'.handles.trans h.handles, fun hsettled => ?_, h'.passive⟩
  -- a background that has settled is still settled behind the first step
  have hsame := h.background hsettled
  exact (h'.background (hsame.symm ▸ hsettled)).trans hsame

theorem undisturbed (h : SameSetting e e') (hcalm : e.Undisturbed) : e'.Undisturbed := by
  rw [Undisturbed, h.disturbance]
  exact hcalm

end SameSetting

theorem sameSetting_createNow (hpassive : e.Passive) (r : Record) :
    SameSetting e (e.createNow r).2 := by
  obtain ⟨store, known, log, contents, heq⟩ := exists_createNow r e
  rw [heq]
  exact ⟨rfl, rfl, rfl, rfl, rfl, fun _ => rfl, hpassive⟩

theorem sameSetting_updateNow (hpassive : e.Passive) (r : Record) :
    SameSetting e (e.updateNow r).2 := by
  obtain ⟨store, contents, heq⟩ := exists_updateNow r e
  rw [heq]
  exact ⟨rfl, rfl, rfl, rfl, rfl, fun _ => rfl, hpassive⟩

theorem sameSetting_announce (act : Act) (hpassive : e.Passive) (ev : Event) (r : Record) :
    SameSetting e (announce act ev r e) := by
  obtain ⟨g, log, hannounced, hpassive'⟩ := announce_of_passive act hpassive ev r
  rw [hannounced] at hpassive' ⊢
  exact ⟨rfl, rfl, rfl, rfl, rfl, fun _ => rfl, hpassive'⟩

theorem sameSetting_ensureBackground (hpassive : e.Passive) : SameSetting e e.ensureBackground.2 := by
  refine ⟨rfl, rfl, rfl, rfl, rfl, fun hsettled => ?_, hpassive⟩
  rw [ensureBackground_again hsettled]

theorem sameSetting_answer (act : Act) (hcalm : e.Undisturbed) (hpassive : e.Passive)
    (q : Manager.Question) : SameSetting e (answer act q e).2 := by
  cases q with
  | read id =>
    rw [hcalm.answer_read]
    exact .refl hpassive
  | create r =>
    rw [hcalm.answer_create]
    exact sameSetting_createNow hpassive r
  | update r =>
    rw [hcalm.answer_update]
    exact sameSetting_updateNow hpassive r
  | live =>
    rw [hcalm.answer_live]
    exact .refl hpassive
  | announce ev r => exact sameSetting_announce act hpassive ev r
  | ensureSweeping => exact sameSetting_ensureBackground hpassive
  | _ => exact ⟨rfl, rfl, rfl, rfl, rfl, fun _ => rfl, hpassive⟩

/-- **The setting stays.** With listeners that ask for nothing and without hooks, no program of the
manager changes the setting that it runs in. -/
theorem sameSetting_runOp {α : Type} (act : Act) (hcalm : e.Undisturbed) (hpassive : e.Passive)
    (p : Manager.Op α) : SameSetting e (runOp act p e).2 := by
  unfold runOp
  induction p generalizing e with
  | done r => exact .refl hpassive
  | ask q next ih =>
    have hfirst := sameSetting_answer act hcalm hpassive q
    exact hfirst.trans (ih _ (hfirst.undisturbed hcalm) hfirst.passive)

end Engine
end Sessions
