import Sessions.Proofs.Manager.Lookup
import Sessions.Proofs.Record.Effect

/-!
# Sessions.Proofs.Manager.Session

What an operation by id gets to work on, on an undisturbed store and with any listeners: a valid
session as it is stored, or a fault. For an invalid session that is to be replaced everything depends
on how the start of its replacement ends.

* `runOp_getSession_of_valid`, `runOp_getSession_of_none`: the session is valid, or there is none.
* `runOp_getSession_of_off`, `runOp_getSession_of_failed`, `runOp_getSession_of_started`: it is invalid,
  and is not replaced, cannot be, or is.
* `runOp_serve_of_session`, `runOp_serve_of_reading`: how an operation goes on with a valid one.
* `Manager.run_serve_erasure`, `Manager.serve_set`: the two ways of writing an attribute.
-/

namespace Sessions

/-- What an operation makes of a finding. -/
def Manager.Finding.session : Manager.Finding → Except Fault Record
  | .found r => .ok r
  | .replaced old new cause => .error (.replaced old new cause)
  | .invalid _ why => .error why

/-- To write the explicit "no value" is to remove, without the answer. -/
theorem Manager.run_serve_erasure {σ : Type}
    (answer : (q : Manager.Question) → σ → Manager.Reply q × σ)
    (id : Id) (ctx : Context) (key : Text) (s : σ) :
    (Manager.serve id ctx (.set key .absent)).run answer s =
      (((Manager.serve id ctx (.remove key)).run answer s).1.map fun _ => (),
        ((Manager.serve id ctx (.remove key)).run answer s).2) := by
  have hserve : Manager.serve id ctx (.set key .absent) =
      Manager.serve id ctx (.remove key) >>= fun _ => pure () := by
    rw [Manager.serve, Manager.set, if_pos rfl]
    rfl
  rw [hserve, Program.run_bind]
  obtain ⟨o, s'⟩ := (Manager.serve id ctx (.remove key)).run answer s
  cases o <;> rfl

/-- To write a value is a change of the session. -/
theorem Manager.serve_set (id : Id) (ctx : Context) {key : Text} {value : Value}
    (hvalue : value ≠ .absent) :
    Manager.serve id ctx (.set key value) = Manager.mutate id ctx (Call.set key value).effect := by
  have heffect : (Call.set key value).effect =
      fun r now => (r.set key value now).map fun r' => ((), some r') := by
    funext r now
    rw [Call.effect, if_neg hvalue]
  rw [Manager.serve, Manager.set, if_neg hvalue, heffect]

namespace Engine

variable {act : Act} {e e' : Engine} {id : Id} {ctx : Context} {r : Record} {f : Fault}

/-- An operation goes on with what its look-up finds. -/
theorem runOp_getSession_eq :
    runOp act (Manager.getSession id ctx) e =
      ((runOp act (Manager.lookup id ctx) e).1.bind (·.session),
        (runOp act (Manager.lookup id ctx) e).2) := by
  cases h : runOp act (Manager.lookup id ctx) e with
  | mk o e' =>
    cases o with
    | error f => exact runOp_bind_error h
    | ok x =>
      rw [Manager.getSession, runOp_bind_ok h]
      cases x <;> rfl

theorem runOp_getSession_of_error (h : runOp act (Manager.lookup id ctx) e = (.error f, e')) :
    runOp act (Manager.getSession id ctx) e = (.error f, e') :=
  runOp_bind_error h

theorem runOp_getSession_of_ok {x : Manager.Finding}
    (h : runOp act (Manager.lookup id ctx) e = (.ok x, e')) :
    runOp act (Manager.getSession id ctx) e = (x.session, e') := by
  rw [runOp_getSession_eq, h]
  rfl

theorem runOp_getSession_of_ensure_error (hid : id ≠ []) (hens : e.ensureBackground = (.error f, e')) :
    runOp act (Manager.getSession id ctx) e = (.error f, e') :=
  runOp_getSession_of_error (runOp_lookup_of_ensure_error hid hens)

section

variable (act) (ctx)
variable (hid : id ≠ []) (hcalm : e.disturbance = .calm) (hens : e.ensureBackground = (.ok (), e'))
include hid hcalm hens

theorem runOp_getSession_of_none (hread : e.store.read id = none) :
    runOp act (Manager.getSession id ctx) e = (.error (.unknown id), e') := by
  obtain ⟨b, lines, _, rfl⟩ := ensureBackground_eq_ok hens
  have hundisturbed : (e.withBackground b lines).Undisturbed := undisturbed_of_calm hcalm
  exact runOp_getSession_of_ok (runOp_lookup_of_none hid hens hundisturbed hread)

theorem runOp_getSession_of_valid (hread : e.store.read id = some r)
    (hnow : r.validity e.clock.now = .valid) :
    runOp act (Manager.getSession id ctx) e = (.ok r, e'.afterReading) := by
  obtain ⟨b, lines, _, rfl⟩ := ensureBackground_eq_ok hens
  have hundisturbed : (e.withBackground b lines).Undisturbed := undisturbed_of_calm hcalm
  exact runOp_getSession_of_ok (runOp_lookup_of_valid hid hens hundisturbed hread hnow)

variable (hread : e.store.read id = some r) {why : Fault}
variable (hwhy : r.validate e.clock.now = .error why)
include hread hwhy

theorem runOp_getSession_of_off (hauto : (e.judged act r).autoCreate = false) :
    runOp act (Manager.getSession id ctx) e = (.error why, e.judged act r) := by
  have hlookup := runOp_lookup_of_invalid act ctx hid hcalm hens hread hwhy
  rw [runOp_replace_off hauto] at hlookup
  exact runOp_getSession_of_ok hlookup

variable (hauto : (e.judged act r).autoCreate = true)
include hauto

theorem runOp_getSession_of_failed {e'' : Engine}
    (hstart : runOp act (Manager.start (r.host <|> ctx.host)) (e.judged act r) = (.error f, e'')) :
    runOp act (Manager.getSession id ctx) e = (.error f, e'') := by
  have hlookup := runOp_lookup_of_invalid act ctx hid hcalm hens hread hwhy
  rw [runOp_replace_of_error hauto hstart] at hlookup
  exact runOp_getSession_of_error hlookup

theorem runOp_getSession_of_started {e'' : Engine} {fresh : Id}
    (hstart : runOp act (Manager.start (r.host <|> ctx.host)) (e.judged act r) = (.ok fresh, e'')) :
    runOp act (Manager.getSession id ctx) e =
      (.error (.replaced id fresh (why.code?.getD .invalidSession)), e''.superseding id fresh why) := by
  have hlookup := runOp_lookup_of_invalid act ctx hid hcalm hens hread hwhy
  rw [runOp_replace_of_ok hauto hstart] at hlookup
  exact runOp_getSession_of_ok hlookup

end

/-! ## Operations on a session -/

/-- Every operation by id fails with the fault of its look-up. -/
theorem runOp_serve_of_error
    (h : runOp act (Manager.getSession id ctx) e = (.error f, e')) (c : Call) :
    runOp act (Manager.serve id ctx c) e = (.error f, e') := by
  cases c with
  | set key value =>
    rw [Manager.serve, Manager.set]
    split
    · exact runOp_bind_error (runOp_bind_error h)
    · exact runOp_bind_error h
  | _ => exact runOp_bind_error h

/-- An operation that changes the session and lets it live. -/
theorem runOp_serve_of_session {c : Call} (hmutator : c.mutator? ≠ none) (hstop : c ≠ .stop)
    (hhooks : e'.Undisturbed)
    (hsession : runOp act (Manager.getSession id ctx) e = (.ok r, e')) :
    runOp act (Manager.serve id ctx c) e = e'.afterReading.writing (c.effect r e'.clock.now) := by
  have hmutate : runOp act (Manager.mutate id ctx c.effect) e =
      e'.afterReading.writing (c.effect r e'.clock.now) := runOp_mutate_of_session _ hhooks hsession
  cases c with
  | setTimeout limit => exact hmutate
  | touch => exact hmutate
  | remove key => exact hmutate
  | stop => exact absurd rfl hstop
  | set key value =>
    by_cases hvalue : value = .absent
    · subst hvalue
      have hremove : runOp act (Manager.serve id ctx (.remove key)) e =
          e'.afterReading.writing ((Call.remove key).effect r e'.clock.now) :=
        runOp_mutate_of_session _ hhooks hsession
      unfold runOp at hremove ⊢
      rw [Manager.run_serve_erasure, hremove, Call.effect_erasure]
      cases (Call.remove key).effect r e'.clock.now with
      | error f => rfl
      | ok p =>
        obtain ⟨a, changed⟩ := p
        cases changed with
        | none => rfl
        | some r' =>
          simp only [Except.map, writing]
          cases e'.afterReading.updateNow r' with
          | mk o e'' => cases o <;> rfl
    · rw [Manager.serve_set id ctx hvalue]
      exact hmutate
  | _ => exact absurd rfl hmutator

/-- The store takes what an operation makes of a live record. -/
theorem updateNow_of_written {c : Call} {r' : Record} {now : Timestamp} (hcalm : e.disturbance = .calm)
    (hread : e.store.read id = some r) (hlive : r.isTerminal = false)
    (hwritten : c.written r now = some r') :
    e.updateNow r' = (.ok (), e.keep (e.store.rewrite r')) := by
  have hid : r'.id = id := (Call.evolves_of_written hwritten).id.trans (Roster.id_of_get? hread)
  refine updateNow_of_calm hcalm (Store.update_ok_of_live ?_ hlive)
  rw [hid]
  exact hread

/-- An operation that changes nothing answers what is read off the record. -/
theorem runOp_serve_of_reading {c : Call} (hreading : c.mutator? = none) (now : Timestamp)
    (hsession : runOp act (Manager.getSession id ctx) e = (.ok r, e')) :
    ∃ a, c.effect r now = .ok (a, none) ∧ runOp act (Manager.serve id ctx c) e = (.ok a, e') := by
  cases c with
  | getStart => exact ⟨r.start, rfl, runOp_bind_ok hsession⟩
  | getLastAccess => exact ⟨r.lastAccess, rfl, runOp_bind_ok hsession⟩
  | getHost => exact ⟨r.host, rfl, runOp_bind_ok hsession⟩
  | getTimeout => exact ⟨r.timeout, rfl, runOp_bind_ok hsession⟩
  | keys => exact ⟨r.attributes.keys, rfl, runOp_bind_ok hsession⟩
  | get key => exact ⟨r.attributes.get? key, rfl, runOp_bind_ok hsession⟩
  | checkValid => exact ⟨(), rfl, runOp_bind_ok hsession⟩
  | _ => cases hreading

end Engine
end Sessions
