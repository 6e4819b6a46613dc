import Sessions.Proofs.Manager.Session
import Sessions.Proofs.Record.Effect

/-!
# Sessions.Proofs.Manager.Service

What an operation by id does to a valid session, on an undisturbed store and with listeners that ask
for nothing: what it comes to on the record, written back over it.

* `Engine.Served` is what it leaves behind.
* `exists_served_of_change`: the operations that read, change and write. `exists_served_stop`: the one
  that ends the session.
* `exists_served`: all of them.
-/

namespace Sessions
namespace Engine

variable {act : Act} {e e' e'' : Engine} {id : Id} {ctx : Context} {r : Record}

/-- An operation was carried out on a valid session: what it changed is written back, and a stop is
counted and announced. -/
structure Served (c : Call) (e e' : Engine) (r : Record) (now : Timestamp) : Prop where
  store : e'.store = (c.written r now).elim e.store e.store.rewrite
  announced : e'.announced =
    e.announced ++ if c = .stop then [(.stop, (c.outcome r now).2)] else []
  stats : e'.stats = if c = .stop then e.stats.bump .stopped else e.stats

namespace Served

variable {c : Call} {now : Timestamp}

/-- The record behind the operation is what is stored for its session. -/
theorem read (h : Served c e e' r now) (hread : e.store.read r.id = some r) :
    e'.store.read r.id = some (c.outcome r now).2 := by
  rw [h.store, Call.outcome]
  cases hwritten : c.written r now with
  | none => exact hread
  | some r' =>
    have hid : r.id = r'.id := (Call.evolves_of_written hwritten).id.symm
    exact (Store.read_rewrite _ _ _).trans (if_pos hid)

theorem started (h : Served c e e' r now) : e'.stats.started = e.stats.started := by
  rw [h.stats]
  split <;> rfl

theorem untouched (h : Served c e e' r now) (h' : Untouched e' e'') : Served c e e'' r now :=
  ⟨h'.store.trans h.store, h'.announced.trans h.announced, h'.stats.trans h.stats⟩

/-- Nothing is written: it is enough that the record was looked at. -/
theorem of_unwritten (hwritten : c.written r now = none) (hstop : c ≠ .stop) :
    Served c e e.afterReading r now := by
  refine ⟨by rw [hwritten]; rfl, ?_, by rw [if_neg hstop]; rfl⟩
  rw [if_neg hstop, List.append_nil]
  rfl

end Served

section

variable (hcalm : e'.disturbance = .calm)
variable (hsession : runOp act (Manager.getSession id ctx) e = (.ok r, e'))
variable (hread : e'.store.read id = some r) (hlive : r.isTerminal = false)
include hcalm hsession hread hlive

theorem exists_served_of_change {c : Call} (hmutator : c.mutator? ≠ none) (hstop : c ≠ .stop) :
    ∃ e'', runOp act (Manager.serve id ctx c) e = ((c.effect r e'.clock.now).map (·.1), e'') ∧
      Served c e' e'' r e'.clock.now := by
  rw [runOp_serve_of_session hmutator hstop (undisturbed_of_calm hcalm) hsession]
  cases ho : c.effect r e'.clock.now with
  | error f =>
    have hwritten : c.written r e'.clock.now = none := by rw [Call.written, ho]
    exact ⟨_, rfl, .of_unwritten hwritten hstop⟩
  | ok p =>
    obtain ⟨a, changed⟩ := p
    have hwritten : c.written r e'.clock.now = changed := by rw [Call.written, ho]
    cases changed with
    | none => exact ⟨_, rfl, .of_unwritten hwritten hstop⟩
    | some r' =>
      simp only [writing, updateNow_of_written (e := e'.afterReading) hcalm hread hlive hwritten]
      refine ⟨_, rfl, ?_, ?_, ?_⟩
      · rw [hwritten]
        rfl
      · rw [if_neg hstop, List.append_nil]
        exact (announced_append (e := e'.afterReading) (l := [.stored _]) rfl).trans
          (List.append_nil _)
      · rw [if_neg hstop]
        rfl

theorem exists_served_stop (hpassive : e'.Passive) :
    ∃ e'', runOp act (Manager.stop id ctx) e =
        ((Call.stop.effect r e'.clock.now).map (·.1), e'') ∧
      Served .stop e' e'' r e'.clock.now := by
  let stopped := { r with stopTime := some e'.clock.now }.advance e'.clock.now
  have hstop : r.stop e'.clock.now = .ok stopped := Record.stop_of_live hlive
  have heffect : Call.stop.effect r e'.clock.now = .ok ((), some stopped) := by
    rw [Call.effect, hstop]
    rfl
  have hwritten : Call.stop.written r e'.clock.now = some stopped := by rw [Call.written, heffect]
  have hnow := runOp_stopNow_of_some act (undisturbed_of_calm hcalm) hread
  simp only [hstop, updateNow_of_written (e := e'.afterReading) hcalm hread hlive hwritten] at hnow
  let e₁ := ((e'.afterReading.keep (e'.afterReading.store.rewrite stopped)).counting .stopped).note
    .debug ("Stopped session " ++ id)
  obtain ⟨g, log, hannounced, _⟩ := announce_of_passive act (e := e₁) hpassive .stop stopped
  refine ⟨announce act .stop stopped e₁, ?_, ⟨?_, ?_, ?_⟩⟩
  · rw [runOp_stop_of_session hsession, hnow, heffect]
    rfl
  · rw [hwritten, hannounced]
    rfl
  · rw [Call.outcome, hwritten, if_pos rfl, hannounced]
    exact announced_append (e := e') (l := [.stored _, .told .stop stopped])
      (List.append_assoc _ _ _)
  · rw [hannounced]
    rfl

end

/-- **Service.** An operation on a valid session answers what it comes to on the record, at the second
reading of the clock, and that is all that it does. -/
theorem exists_served (act : Act) (ctx : Context) (hid : id ≠ []) (hcalm : e.disturbance = .calm)
    (hpassive : e.Passive) (hens : e.ensureBackground = (.ok (), e')) (hread : e.store.read id = some r)
    (hnow : r.validity e.clock.now = .valid) (c : Call) :
    ∃ e'', runOp act (Manager.serve id ctx c) e =
        ((c.outcome r e.clock.read.2.now).1, e'') ∧
      Served c e e'' r e.clock.read.2.now := by
  have hsession := runOp_getSession_of_valid act ctx hid hcalm hens hread hnow
  have hlive := Record.isTerminal_of_validity (Or.inl hnow)
  obtain ⟨b, lines, _, rfl⟩ := ensureBackground_eq_ok hens
  let e₁ := (e.withBackground b lines).afterReading
  have hcalm₁ : e₁.disturbance = .calm := hcalm
  have hread₁ : e₁.store.read id = some r := hread
  by_cases hreading : c.mutator? = none
  · obtain ⟨a, heffect, hrun⟩ := runOp_serve_of_reading hreading e.clock.read.2.now hsession
    have hwritten : c.written r e.clock.read.2.now = none := by rw [Call.written, heffect]
    have hstop : c ≠ .stop := by
      rintro rfl
      cases hreading
    have hserved := Served.of_unwritten (e := e.withBackground b lines) hwritten hstop
    refine ⟨e₁, ?_, hserved.store, hserved.announced, hserved.stats⟩
    rw [hrun, Call.outcome, heffect]
    rfl
  · by_cases hstop : c = .stop
    · subst hstop
      obtain ⟨e'', hrun, hserved⟩ := exists_served_stop hcalm₁ hsession hread₁ hlive hpassive
      exact ⟨e'', hrun, hserved.store, hserved.announced, hserved.stats⟩
    · obtain ⟨e'', hrun, hserved⟩ :=
        exists_served_of_change hcalm₁ hsession hread₁ hlive hreading hstop
      exact ⟨e'', hrun, hserved.store, hserved.announced, hserved.stats⟩

end Engine
end Sessions
