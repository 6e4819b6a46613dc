import Sessions.Proofs.Engine.Undisturbed

/-!
# Sessions.Proofs.Manager.Access

What an access goes through on a store without hooks, case by case: the background refuses, no
record is stored, the record is valid, it ended before, it is timed out.

* `runOp_lookup_of_none`, `runOp_lookup_of_valid`, `runOp_lookup_of_ended`,
  `runOp_lookup_of_timedOut`: the look-up in each case.
* `runOp_replace_off`, `runOp_replace_of_error`, `runOp_replace_of_ok`: what becomes of an invalid
  session.
* `lookup_found`: whatever an access finds is stored and live.
-/

namespace Sessions
namespace Engine

variable {act : Act} {e e' : Engine} {id : Id} {ctx : Context} {r : Record} {f : Fault}

/-! ## Invalid sessions -/

/-- A session was put in the place of another one: it is counted and logged. -/
def superseding (e : Engine) (id fresh : Id) (why : Fault) : Engine :=
  (e.counting .replaced).note .debug
    ("Session " ++ id ++ " is invalid (" ++ why.message ++ "), replaced by " ++ fresh)

theorem runOp_replace_off {host : Option Text} {why : Fault} (h : e.autoCreate = false) :
    runOp act (Manager.replaceOrReport id host ctx why) e = (.ok (.invalid id why), e) := by
  rw [Manager.replaceOrReport, runOp_bind_ok runOp_autoCreate, h]
  rfl

theorem runOp_replace_of_error {host : Option Text} {why : Fault} (h : e.autoCreate = true)
    (hstart : runOp act (Manager.start (host <|> ctx.host)) e = (.error f, e')) :
    runOp act (Manager.replaceOrReport id host ctx why) e = (.error f, e') := by
  rw [Manager.replaceOrReport, runOp_bind_ok runOp_autoCreate, h]
  exact runOp_bind_error hstart

theorem runOp_replace_of_ok {host : Option Text} {why : Fault} {fresh : Id}
    (h : e.autoCreate = true)
    (hstart : runOp act (Manager.start (host <|> ctx.host)) e = (.ok fresh, e')) :
    runOp act (Manager.replaceOrReport id host ctx why) e =
      (.ok (.replaced id fresh (why.code?.getD .invalidSession)), e'.superseding id fresh why) := by
  rw [Manager.replaceOrReport, runOp_bind_ok runOp_autoCreate, h]
  exact runOp_bind_ok hstart

theorem runOp_replace_ne_found (host : Option Text) (why : Fault) :
    (runOp act (Manager.replaceOrReport id host ctx why) e).1 ≠ .ok (.found r) := by
  intro h
  cases hauto : e.autoCreate with
  | false =>
    rw [runOp_replace_off hauto] at h
    cases h
  | true =>
    cases hstart : runOp act (Manager.start (host <|> ctx.host)) e with
    | mk o e' =>
      cases o with
      | error f =>
        rw [runOp_replace_of_error hauto hstart] at h
        cases h
      | ok fresh =>
        rw [runOp_replace_of_ok hauto hstart] at h
        cases h

/-! ## Looking up -/

theorem runOp_lookup_of_malformed :
    runOp act (Manager.lookup [] ctx) e = (.error (Fault.idMalformed []), e) := rfl

theorem runOp_lookup_of_ensure_error (hid : id ≠ [])
    (h : e.ensureBackground = (.error f, e')) :
    runOp act (Manager.lookup id ctx) e = (.error f, e') := by
  rw [Manager.lookup, if_neg hid]
  exact runOp_bind_error h

theorem runOp_lookup_of_read (hid : id ≠ []) (h : e.ensureBackground = (.ok (), e'))
    (hcalm : e'.Undisturbed) :
    runOp act (Manager.lookup id ctx) e =
      match e'.store.read id with
      | none => (.ok (.invalid id (.unknown id)), e')
      | some r =>
        runOp act (match r.stopTime, r.validity e'.clock.now with
          | some t, _ => Manager.replaceOrReport id r.host ctx (.stopped id (.atTime t))
          | none, .valid => return .found r
          | none, .timedOut => Manager.lookupTimedOut id r e'.clock.now ctx
          | none, _ => Manager.replaceOrReport id r.host ctx (.expired id .marked))
          e'.afterReading := by
  have hensure : runOp act Manager.ensureSweeping e = (.ok (), e') := h
  have hread := runOp_read act hcalm id
  rw [Manager.lookup, if_neg hid]
  change runOp act (Manager.ensureSweeping >>= _) e = _
  rw [runOp_bind_ok hensure, runOp_bind_ok hread]
  cases e'.store.read id with
  | none => rfl
  | some r => exact runOp_bind_ok runOp_clock

theorem runOp_lookup_of_none (hid : id ≠ []) (h : e.ensureBackground = (.ok (), e'))
    (hcalm : e'.Undisturbed) (hread : e'.store.read id = none) :
    runOp act (Manager.lookup id ctx) e = (.ok (.invalid id (.unknown id)), e') := by
  rw [runOp_lookup_of_read hid h hcalm, hread]

theorem runOp_lookup_of_valid (hid : id ≠ []) (h : e.ensureBackground = (.ok (), e'))
    (hcalm : e'.Undisturbed) (hread : e'.store.read id = some r)
    (hnow : r.validity e'.clock.now = .valid) :
    runOp act (Manager.lookup id ctx) e = (.ok (.found r), e'.afterReading) := by
  have hlive := Record.isTerminal_of_validity (Or.inl hnow)
  have hstop : r.stopTime = none := (Record.isTerminal_eq_false_iff.1 hlive).1
  rw [runOp_lookup_of_read hid h hcalm, hread]
  simp only [hstop, hnow]
  rfl

/-- A session that ended before is invalid for the reason that it ended for. -/
theorem runOp_lookup_of_ended (hid : id ≠ []) (h : e.ensureBackground = (.ok (), e'))
    (hcalm : e'.Undisturbed) (hread : e'.store.read id = some r) {why : Fault}
    (hend : r.endFault? = some why) :
    runOp act (Manager.lookup id ctx) e =
      runOp act (Manager.replaceOrReport id r.host ctx why) e'.afterReading := by
  have hrid : r.id = id := Roster.id_of_get? hread
  rw [runOp_lookup_of_read hid h hcalm, hread]
  unfold Record.endFault? at hend
  cases hstop : r.stopTime with
  | some t =>
    rw [hstop, hrid] at hend
    cases hend
    simp only [hstop]
  | none =>
    simp only [hstop] at hend
    cases hexp : r.expired with
    | false =>
      rw [hexp] at hend
      cases hend
    | true =>
      rw [hexp, hrid] at hend
      cases hend
      have hvalidity : r.validity e'.clock.now = .expired := by
        simp [Record.validity, hstop, hexp]
      simp only [hstop, hvalidity]

/-- A session that is timed out is marked, which is announced, and is then invalid. Nobody comes in
between, so what is marked is what was read. -/
theorem runOp_lookup_of_timedOut (hid : id ≠ []) (h : e.ensureBackground = (.ok (), e'))
    (hcalm : e'.Undisturbed) (hread : e'.store.read id = some r)
    (hnow : r.validity e'.clock.now = .timedOut) :
    runOp act (Manager.lookup id ctx) e =
      match e'.afterReading.updateNow r.marked with
      | (.error f, e'') => (.error f, e'')
      | (.ok _, e'') =>
        runOp act (Manager.replaceOrReport id r.host ctx
            (.expired id (.idle r.lastAccess e'.clock.now r.timeout)))
          (announce act .expiration r.marked (e''.counting .expired)) := by
  have hlive := Record.isTerminal_of_validity (Or.inr hnow)
  have hstop : r.stopTime = none := (Record.isTerminal_eq_false_iff.1 hlive).1
  have hafter : e'.afterReading.Undisturbed := hcalm
  have hmarked := runOp_expire_of_timedOut act hafter hread hnow
  rw [runOp_lookup_of_read hid h hcalm, hread]
  simp only [hstop, hnow]
  cases hwrite : e'.afterReading.updateNow r.marked with
  | mk o e'' =>
    rw [hwrite] at hmarked
    cases o with
    | error f => exact runOp_bind_error hmarked
    | ok u =>
      have hstop' : r.marked.stopTime = none := hstop
      rw [Manager.lookupTimedOut, runOp_bind_ok hmarked]
      simp only [if_true]
      rw [runOp_bind_ok (runOp_announce _ _)]
      simp only [hstop', Record.validity_marked hlive]

/-! ## What is found -/

theorem undisturbed_of_ensure {o : Except Fault Unit} (hcalm : e.Undisturbed)
    (h : e.ensureBackground = (o, e')) : e'.Undisturbed := by
  have hbackground : e.ensureBackground.2.Undisturbed := hcalm
  rwa [h] at hbackground

/-- Whatever an access finds is stored, and is live. -/
theorem lookup_found (hcalm : e.Undisturbed)
    (h : runOp act (Manager.lookup id ctx) e = (.ok (.found r), e')) :
    e'.store.read id = some r ∧ r.isTerminal = false ∧ e'.Undisturbed := by
  have hid : id ≠ [] := by
    rintro rfl
    rw [runOp_lookup_of_malformed] at h
    cases h
  cases hens : e.ensureBackground with
  | mk o e₁ =>
    have hcalm₁ : e₁.Undisturbed := undisturbed_of_ensure hcalm hens
    cases o with
    | error f =>
      rw [runOp_lookup_of_ensure_error hid hens] at h
      cases h
    | ok u =>
      cases hread : e₁.store.read id with
      | none =>
        rw [runOp_lookup_of_none hid hens hcalm₁ hread] at h
        cases h
      | some r₁ =>
        cases hnow : r₁.validity e₁.clock.now with
        | valid =>
          rw [runOp_lookup_of_valid hid hens hcalm₁ hread hnow] at h
          cases h
          exact ⟨hread, Record.isTerminal_of_validity (Or.inl hnow), hcalm₁⟩
        | timedOut =>
          rw [runOp_lookup_of_timedOut hid hens hcalm₁ hread hnow] at h
          split at h
          · cases h
          · exact absurd (congrArg Prod.fst h) (runOp_replace_ne_found _ _)
        | _ =>
          have hended : r₁.validity e₁.clock.now = .stopped ∨ r₁.validity e₁.clock.now = .expired := by
            simp [hnow]
          obtain ⟨why, hwhy⟩ := Record.exists_endFault hended
          rw [runOp_lookup_of_ended hid hens hcalm₁ hread hwhy] at h
          exact absurd (congrArg Prod.fst h) (runOp_replace_ne_found _ _)

end Engine
end Sessions
