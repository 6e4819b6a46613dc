import Sessions.Proofs.Manager.Asking
import Sessions.Proofs.Manager.Probe
import Sessions.Proofs.Manager.Sweep

/-!
# Sessions.Proofs.Manager.Transparency

A sweep in front of an access changes nothing for the caller. The access finds the session marked which it
would have marked itself; beyond that the sweep has ended other sessions, so where room is made for a
replacement another one may be dropped.

* `Alike`: two accesses that no caller can tell apart but by the id of the session that is started.
* `Behind e e'`: nothing that an access depends on has changed but for records that were marked.
  `Behind.alike_lookup`: then accesses are alike. `exists_behind`: so it is behind a sweep.
* `overdue`: whether a session is timed out and not marked. `expirations_lookup`, `expirations_of_swept`: how
  often an access, and a sweep, announce that it has expired.
* `sweep_is_transparent`: the access behind a sweep beside the access without it.
-/

namespace Sessions

/-- At most one record has a given id. -/
theorem Roster.countP_id (s : Roster) (id : Id) :
    s.list.countP (·.id = id) = if s.contains id then 1 else 0 := by
  have hcount : s.list.countP (·.id = id) = (s.list.map (·.id)).count id := by
    rw [List.count, List.countP_map]
    exact List.countP_congr fun r _ => by simp
  rw [hcount, s.distinct.count]
  cases hcontains : s.contains id with
  | false => exact if_neg (not_mem_of_contains_eq_false hcontains)
  | true =>
    obtain ⟨r, hr⟩ := Option.isSome_iff_exists.1 hcontains
    have hmem : id ∈ s.list.map (·.id) := id_of_get? hr ▸ List.mem_map_of_mem (mem_of_get? hr)
    exact if_pos hmem

/-- Stores that hold the same sessions, whatever their records are. -/
theorem Store.contains_of_map {s s' : Store} {g : Record → Record}
    (h : ∀ id, s'.read id = (s.read id).map g) (id : Id) : s'.contains id = s.contains id := by
  have hread : s'.records.get? id = (s.records.get? id).map g := h id
  rw [contains, contains, Roster.contains, Roster.contains, hread, Option.isSome_map]

namespace Record

variable {failing : List Id} {now : Timestamp} {r : Record}

theorem host_swept : (r.swept failing now).host = r.host := by
  unfold swept
  split <;> rfl

theorem isStopped_swept : (r.swept failing now).isStopped = r.isStopped := by
  unfold swept
  split <;> rfl

/-- A sweep makes no session valid, and spoils none that is. -/
theorem swept_of_valid (h : r.validity now = .valid) : r.swept failing now = r :=
  swept_of_not_due fun hdue => by rw [hdue.1] at h; cases h

theorem validity_swept_ne_valid (h : r.validity now ≠ .valid) :
    (r.swept failing now).validity now ≠ .valid := by
  by_cases hdue : r.Due failing now
  · rw [swept_of_due hdue, validity_marked hdue.live]
    exact nofun
  · rwa [swept_of_not_due hdue]

end Record

namespace Engine

variable {act : Act} {e e' e'' : Engine} {id : Id} {ctx : Context} {r : Record} {f : Fault}

/-! ## Announced expirations -/

/-- How often it was announced that a session has expired. -/
def expirations (e : Engine) (id : Id) : Nat :=
  e.announced.countP fun a => a.1 = .expiration ∧ a.2.id = id

/-- One for a session that is timed out now but not marked, zero for every other id. -/
def overdue (e : Engine) (id : Id) : Nat :=
  if ((e.store.read id).any fun r => r.validity e.clock.now = .timedOut) then 1 else 0

theorem overdue_of_none (h : e.store.read id = none) : e.overdue id = 0 := by simp [overdue, h]

theorem overdue_of_some (h : e.store.read id = some r) :
    e.overdue id = if r.validity e.clock.now = .timedOut then 1 else 0 := by simp [overdue, h]

theorem expirations_of_journal {l : List Entry} (h : e'.journal = e.journal ++ l) :
    e'.expirations id = e.expirations id +
      (l.filterMap (·.telling?)).countP fun a => a.1 = .expiration ∧ a.2.id = id := by
  rw [expirations, announced_append h, List.countP_append]
  rfl

theorem countP_expiryEntries (s : Store) (r : Record) (now : Timestamp) :
    ((expiryEntries s r now).filterMap (·.telling?)).countP
        (fun a => a.1 = .expiration ∧ a.2.id = r.id) =
      if r.validity now = .timedOut then 1 else 0 := by
  unfold expiryEntries
  split <;> simp [Entry.telling?, Record.marked_id]

theorem expirations_of_validated (hread : e.store.read id = some r)
    (h : Validated e e' r e.clock.now) : e'.expirations id = e.expirations id + e.overdue id := by
  obtain rfl : r.id = id := Roster.id_of_get? hread
  rw [expirations_of_journal h.journal, countP_expiryEntries, overdue_of_some hread]

theorem expirations_of_superseded {fresh : Record} (hread : e.store.read id = some r)
    (h : Superseded e e' r e.clock.now fresh) :
    e'.expirations id = e.expirations id + e.overdue id := by
  obtain rfl : r.id = id := Roster.id_of_get? hread
  have hjournal := h.journal
  rw [List.append_assoc] at hjournal
  rw [expirations_of_journal hjournal, List.filterMap_append, List.countP_append, countP_expiryEntries,
    overdue_of_some hread]
  simp [Entry.telling?]

/-! ## One access -/

/-- What an access answers for a session that is not valid, with the host that a replacement would be
started for, the fault of the session and its code. -/
def verdict (e : Engine) (id : Id) (host : Option Text) (why : Fault) (code : Code) :
    Except Fault Manager.Finding :=
  if e.autoCreate then
    match e.admission.check host with
    | .error f => .error f
    | .ok _ =>
      if e.store.contains e.draw.1 then .error (Fault.duplicate e.draw.1)
      else .ok (.replaced id e.draw.1 code)
  else .ok (.invalid id why)

/-- An access to a session that is not valid answers the verdict, a replacement that it answers is
stored, and if the session is timed out then its expiration is announced once. -/
theorem exists_verdict (act : Act) (ctx : Context) (hid : id ≠ []) (hcalm : e.disturbance = .calm)
    (hpassive : e.Passive) (hens : e.ensureBackground = (.ok (), e')) (hread : e.store.read id = some r)
    (hnow : r.validity e.clock.now ≠ .valid) {why : Fault} {code : Code}
    (hwhy : r.validate e.clock.now = .error why) (hcode : why.code? = some code) :
    ∃ e'', runOp act (Manager.lookup id ctx) e =
        (e.verdict id (r.host <|> ctx.host) why code, e'') ∧
      (∀ old new cause, e.verdict id (r.host <|> ctx.host) why code = .ok (.replaced old new cause) →
        e''.store.read new =
          some (Record.new new e.clock.read.2.now (r.host <|> ctx.host) e.timeout)) ∧
      e''.expirations id = e.expirations id + e.overdue id := by
  have hpoised := poised_judged act hpassive hens r
  rw [runOp_lookup_of_invalid act ctx hid hcalm hens hread hwhy]
  generalize e.judged act r = e₂ at hpoised
  have hmarked := expirations_of_validated hread hpoised.validated
  unfold verdict
  cases hauto : e.autoCreate with
  | false =>
    rw [runOp_replace_off (by rw [hpoised.autoCreate, hauto])]
    exact ⟨e₂, rfl, fun _ _ _ h => (nomatch h), hmarked⟩
  | true =>
    have hauto' : e₂.autoCreate = true := by rw [hpoised.autoCreate, hauto]
    cases hcheck : e.admission.check (r.host <|> ctx.host) with
    | error f =>
      rw [refused_of_poised act hpoised hauto hcheck]
      exact ⟨e₂, rfl, fun _ _ _ h => (nomatch h), hmarked⟩
    | ok u =>
      cases htaken : e.store.contains e.draw.1 with
      | true =>
        rw [runOp_replace_of_error hauto' (start_of_taken act hpoised hcalm hcheck htaken)]
        exact ⟨e₂.supplied, rfl, fun _ _ _ h => (nomatch h), hmarked⟩
      | false =>
        have hfresh := Roster.contains_eq_false_iff.1 htaken
        obtain ⟨e₃, hrun, hsuperseded, _⟩ :=
          replaced_of_poised act hpoised hcalm hread hnow hfresh hauto hcheck hcode
        obtain ⟨lines, hcreate⟩ := hsuperseded.store
        rw [hrun]
        refine ⟨e₃, rfl, fun old new cause h => ?_, expirations_of_superseded hread hsuperseded⟩
        cases h
        exact (Store.read_create hcreate).2.1

/-! ## Two accesses -/

/-- The same fault; the same session; a replacement of the same session for the same reason, by sessions
that differ by their ids only; or the same reason for there being none. -/
inductive Alike : Except Fault Manager.Finding × Engine → Except Fault Manager.Finding × Engine → Prop
  | failed (f : Fault) (e e' : Engine) : Alike (.error f, e) (.error f, e')
  | found (r : Record) (e e' : Engine) : Alike (.ok (.found r), e) (.ok (.found r), e')
  | replaced {old new new' : Id} {cause : Code} {r : Record} {e e' : Engine} :
      e.store.read new = some r → e'.store.read new' = some { r with id := new' } →
      Alike (.ok (.replaced old new cause), e) (.ok (.replaced old new' cause), e')
  | invalid {id : Id} {why why' : Fault} (e e' : Engine) : why.code? = why'.code? →
      Alike (.ok (.invalid id why), e) (.ok (.invalid id why'), e')

/-- Nothing that an access depends on has changed but for records that were marked. The ids at hand may
be others, as long as none of the two is taken. -/
structure Behind (e e' : Engine) : Prop where
  read : ∀ id, e'.store.read id = (e.store.read id).map (·.swept [] e.clock.now)
  now : e'.clock.now = e.clock.now
  next : e'.clock.read.2.now = e.clock.read.2.now
  background : e'.background = e.background
  autoCreate : e'.autoCreate = e.autoCreate
  admission : e'.admission = e.admission
  timeout : e'.timeout = e.timeout
  disturbance : e'.disturbance = e.disturbance
  passive : e'.Passive
  draw : e'.draw.1 = e.draw.1 ∨
    e.store.contains e.draw.1 = false ∧ e'.store.contains e'.draw.1 = false

namespace Behind

theorem ensure (h : Behind e e') : e'.ensureBackground.1 = e.ensureBackground.1 := by
  unfold ensureBackground
  rw [h.background]

/-- Both ids are taken, and are the same, or none is. -/
theorem taken (h : Behind e e') : e'.store.contains e'.draw.1 = e.store.contains e.draw.1 ∧
    (e.store.contains e.draw.1 = true → e'.draw.1 = e.draw.1) := by
  rcases h.draw with hdraw | ⟨hnew, hnew'⟩
  · rw [Store.contains_of_map h.read, hdraw]
    exact ⟨rfl, fun _ => rfl⟩
  · rw [hnew, hnew']
    exact ⟨rfl, fun htaken => nomatch htaken⟩

/-- The two verdicts are decided by the same switches. -/
theorem alike_verdict (h : Behind e e') {host : Option Text} {why why' : Fault} {code : Code}
    {e₁ e₂ : Engine} (hwhy : why.code? = why'.code?)
    (hread : ∀ old new cause, e.verdict id host why code = .ok (.replaced old new cause) →
      e₁.store.read new = some (Record.new new e.clock.read.2.now host e.timeout))
    (hread' : ∀ old new cause, e'.verdict id host why' code = .ok (.replaced old new cause) →
      e₂.store.read new = some (Record.new new e'.clock.read.2.now host e'.timeout)) :
    Alike (e.verdict id host why code, e₁) (e'.verdict id host why' code, e₂) := by
  unfold verdict at hread hread' ⊢
  rw [h.autoCreate, h.admission] at hread' ⊢
  cases hauto : e.autoCreate with
  | false => exact .invalid e₁ e₂ hwhy
  | true =>
    cases hcheck : e.admission.check host with
    | error f => exact .failed f e₁ e₂
    | ok u =>
      simp only [hauto, hcheck, if_true] at hread hread' ⊢
      obtain ⟨htaken, hsame⟩ := h.taken
      cases hnew : e.store.contains e.draw.1 with
      | true =>
        rw [htaken, hnew, hsame hnew]
        exact .failed _ e₁ e₂
      | false =>
        rw [htaken, hnew] at hread' ⊢
        rw [hnew] at hread
        refine .replaced (hread _ _ _ rfl) ?_
        rw [hread' _ _ _ rfl, h.next, h.timeout]
        rfl

/-- A session that is found not to be valid is so for the same reason behind the sweep. -/
theorem alike_of_invalid (h : Behind e e') (act : Act) (ctx : Context) (hid : id ≠ [])
    (hcalm : e.disturbance = .calm) (hpassive : e.Passive) (hens : e.ensureBackground.1 = .ok ())
    (hread : e.store.read id = some r) (hnow : r.validity e.clock.now ≠ .valid) :
    Alike (runOp act (Manager.lookup id ctx) e) (runOp act (Manager.lookup id ctx) e') := by
  have hread' : e'.store.read id = some (r.swept [] e.clock.now) := by rw [h.read, hread]; rfl
  have hnow' : (r.swept [] e.clock.now).validity e'.clock.now ≠ .valid := by
    rw [h.now]
    exact Record.validity_swept_ne_valid hnow
  obtain ⟨why, code, hwhy, hcode, hkind⟩ := exists_reason hnow
  obtain ⟨why', code', hwhy', hcode', hkind'⟩ := exists_reason hnow'
  obtain rfl : code' = code := by rw [hkind, hkind', Record.isStopped_swept]
  have hens₁ : e.ensureBackground = (.ok (), e.ensureBackground.2) := Prod.ext hens rfl
  have hens₂ : e'.ensureBackground = (.ok (), e'.ensureBackground.2) :=
    Prod.ext (h.ensure.trans hens) rfl
  obtain ⟨e₁, hrun, hstored, _⟩ :=
    exists_verdict act ctx hid hcalm hpassive hens₁ hread hnow hwhy hcode
  obtain ⟨e₂, hrun', hstored', _⟩ :=
    exists_verdict act ctx hid (h.disturbance.trans hcalm) h.passive hens₂ hread' hnow' hwhy' hcode'
  rw [Record.host_swept] at hrun' hstored'
  rw [hrun, hrun']
  exact h.alike_verdict (hcode.trans hcode'.symm) hstored hstored'

/-- An access behind a sweep and one without it look alike. -/
theorem alike_lookup (h : Behind e e') (act : Act) (id : Id) (ctx : Context)
    (hcalm : e.disturbance = .calm) (hpassive : e.Passive) :
    Alike (runOp act (Manager.lookup id ctx) e) (runOp act (Manager.lookup id ctx) e') := by
  by_cases hid : id = []
  · subst hid
    exact .failed _ e e'
  cases hens : e.ensureBackground.1 with
  | error f =>
    have hens₁ : e.ensureBackground = (.error f, e.ensureBackground.2) := Prod.ext hens rfl
    have hens₂ : e'.ensureBackground = (.error f, e'.ensureBackground.2) :=
      Prod.ext (h.ensure.trans hens) rfl
    rw [runOp_lookup_of_ensure_error hid hens₁, runOp_lookup_of_ensure_error hid hens₂]
    exact .failed f _ _
  | ok u =>
    have hens₁ : e.ensureBackground = (.ok (), e.ensureBackground.2) := Prod.ext hens rfl
    have hens₂ : e'.ensureBackground = (.ok (), e'.ensureBackground.2) :=
      Prod.ext (h.ensure.trans hens) rfl
    have hhooks₁ : e.ensureBackground.2.Undisturbed := undisturbed_of_calm hcalm
    have hhooks₂ : e'.ensureBackground.2.Undisturbed :=
      undisturbed_of_calm (h.disturbance.trans hcalm)
    cases hread : e.store.read id with
    | none =>
      have hread' : e'.store.read id = none := by rw [h.read, hread]; rfl
      rw [runOp_lookup_of_none hid hens₁ hhooks₁ hread, runOp_lookup_of_none hid hens₂ hhooks₂ hread']
      exact .invalid _ _ rfl
    | some r =>
      by_cases hnow : r.validity e.clock.now = .valid
      · have hread' : e'.store.read id = some r := by
          rw [h.read, hread, Option.map_some, Record.swept_of_valid hnow]
        have hnow' : r.validity e'.clock.now = .valid := by rw [h.now, hnow]
        rw [runOp_lookup_of_valid hid hens₁ hhooks₁ hread hnow,
          runOp_lookup_of_valid hid hens₂ hhooks₂ hread' hnow']
        exact .found r _ _
      · exact h.alike_of_invalid act ctx hid hcalm hpassive hens hread hnow

end Behind

/-! ## The sweep in front -/

/-- An access that gets past the check of its id and the background announces that its session has
expired, once if there is reason to. -/
theorem expirations_lookup (act : Act) (id : Id) (ctx : Context) (hcalm : e.disturbance = .calm)
    (hpassive : e.Passive) :
    (runOp act (Manager.lookup id ctx) e).2.expirations id = e.expirations id +
      if id ≠ [] ∧ e.ensureBackground.1 = .ok () then e.overdue id else 0 := by
  by_cases hid : id = []
  · subst hid
    rfl
  cases hens : e.ensureBackground.1 with
  | error f =>
    have hens' : e.ensureBackground = (.error f, e.ensureBackground.2) := Prod.ext hens rfl
    rw [runOp_lookup_of_ensure_error hid hens', if_neg fun h => nomatch h.2]
    rfl
  | ok u =>
    rw [if_pos ⟨hid, rfl⟩]
    have hens' : e.ensureBackground = (.ok (), e.ensureBackground.2) := Prod.ext hens rfl
    have hhooks : e.ensureBackground.2.Undisturbed := undisturbed_of_calm hcalm
    cases hread : e.store.read id with
    | none =>
      rw [runOp_lookup_of_none hid hens' hhooks hread, overdue_of_none hread]
      rfl
    | some r =>
      by_cases hnow : r.validity e.clock.now = .valid
      · rw [runOp_lookup_of_valid hid hens' hhooks hread hnow, overdue_of_some hread,
          if_neg (by simp [hnow])]
        rfl
      · obtain ⟨why, code, hwhy, hcode, _⟩ := exists_reason hnow
        obtain ⟨e₁, hrun, _, hcount⟩ :=
          exists_verdict act ctx hid hcalm hpassive hens' hread hnow hwhy hcode
        rw [hrun, hcount]

/-- A sweep announces of each session whether it has expired, and that once. -/
theorem expirations_of_swept (h : Swept e e' e.clock.now) (hcalm : e.disturbance = .calm) (id : Id) :
    e'.expirations id = e.expirations id + e.overdue id := by
  have hpoisoned : e.disturbance.poisoned = [] := by rw [hcalm]; rfl
  let due := e.store.records.filter fun r => r.Due [] e.clock.now
  have hcontains : due.contains id =
      (e.store.read id).any fun r => r.validity e.clock.now = .timedOut := by
    rw [Roster.contains, Roster.get?_filter, Store.read]
    cases e.store.records.get? id with
    | none => rfl
    | some r =>
      by_cases hnow : r.validity e.clock.now = .timedOut <;> simp [Option.filter, Record.Due, hnow]
  have htold : (due.list.map fun r => (Event.expiration, r.marked)).countP
      (fun a => a.1 = .expiration ∧ a.2.id = id) = e.overdue id := by
    rw [overdue, ← hcontains, ← due.countP_id id, List.countP_map]
    exact List.countP_congr fun r _ => by
      simp only [Function.comp_apply, Record.marked_id, true_and]
  rw [expirations, h.announced, List.countP_append, hpoisoned]
  exact congrArg _ htold

/-- Behind a sweep no session is timed out that is not marked. -/
theorem Behind.overdue (h : Behind e e') (id : Id) : e'.overdue id = 0 := by
  cases hfound : e.store.read id with
  | none => exact overdue_of_none (by rw [h.read, hfound]; rfl)
  | some r =>
    have hread : e'.store.read id = some (r.swept [] e.clock.now) := by rw [h.read, hfound]; rfl
    rw [overdue_of_some hread, h.now]
    exact if_neg fun htimedOut => Record.not_due_swept _ _ r ⟨htimedOut, List.not_mem_nil⟩

/-- A sweep with other ids at hand comes to its end, and what an access depends on is as before. -/
theorem exists_behind (act : Act) (source : IdSource) (drawn : Nat) (hcalm : e.disturbance = .calm)
    (hpassive : e.Passive) (hstill : e.clock.Rests 3)
    (hdraw : Id.ofWords (source drawn) = e.draw.1 ∨
      e.store.contains e.draw.1 = false ∧ e.store.contains (Id.ofWords (source drawn)) = false) :
    ∃ n e', runOp act Manager.sweep { e with source, drawn } = (.ok n, e') ∧
      Swept { e with source, drawn } e' e.clock.now ∧ Behind e e' := by
  let e₀ : Engine := { e with source, drawn }
  have hcalm₀ : e₀.disturbance = .calm := hcalm
  have hhooks : e₀.Undisturbed := undisturbed_of_calm hcalm
  have hpassive₀ : e₀.Passive := hpassive
  have hlists : e₀.disturbance.listFails = false := by rw [hcalm₀]; rfl
  obtain ⟨e', hrun, hswept⟩ := runOp_sweep act hpassive₀ hhooks hlists
  have hsupply := supply_sweep act hhooks hpassive₀
  have hsetting := sameSetting_runOp act hhooks hpassive₀ Manager.sweep
  rw [hrun] at hsupply hsetting
  have hread : ∀ i, e'.store.read i = (e.store.read i).map (·.swept [] e.clock.now) := by
    intro i
    rw [hswept.read, hcalm₀]
    rfl
  have hdraw' : e'.draw.1 = Id.ofWords (source drawn) := hsupply.draw
  exact ⟨_, e', hrun, hswept,
    { read := hread
      now := by
        rw [hsupply.clock]
        exact hstill.now_read (by omega)
      next := by
        rw [hsupply.clock]
        exact (hstill.read (by omega)).now_read (by omega)
      background := hsupply.background, autoCreate := hsetting.autoCreate
      admission := hsetting.admission, timeout := hsetting.timeout
      disturbance := hsetting.disturbance, passive := hswept.passive
      draw := by
        rw [hdraw', Store.contains_of_map hread]
        exact hdraw }⟩

/-- **A sweep is transparent.** On an undisturbed store, with listeners that ask for nothing, a clock that
stands still, and ids at hand of which none is taken unless they are the same: an access answers alike with
a sweep in front of it and without, for every session and every request. If the access gets past the check
of its id and the background, then with the sweep and without it an expiration of the session is announced
exactly once if it is timed out and not marked, and never otherwise. If it does not get there, the sweep
announces the same, and the access alone announces nothing. -/
theorem sweep_is_transparent (act : Act) {e : Engine} (id : Id) (ctx : Context) (source : IdSource)
    (drawn : Nat) (hcalm : e.disturbance = .calm) (hpassive : e.Passive) (hstill : e.clock.Rests 3)
    (hdraw : Id.ofWords (source drawn) = e.draw.1 ∨
      e.store.contains e.draw.1 = false ∧ e.store.contains (Id.ofWords (source drawn)) = false) :
    ∃ n e', runOp act Manager.sweep { e with source, drawn } = (.ok n, e') ∧
      Alike (runOp act (Manager.lookup id ctx) e) (runOp act (Manager.lookup id ctx) e') ∧
      (runOp act (Manager.lookup id ctx) e').2.expirations id = e.expirations id + e.overdue id ∧
      (runOp act (Manager.lookup id ctx) e).2.expirations id = e.expirations id +
        if id ≠ [] ∧ e.ensureBackground.1 = .ok () then e.overdue id else 0 := by
  obtain ⟨n, e', hrun, hswept, hbehind⟩ := exists_behind act source drawn hcalm hpassive hstill hdraw
  refine ⟨n, e', hrun, hbehind.alike_lookup act id ctx hcalm hpassive, ?_,
    expirations_lookup act id ctx hcalm hpassive⟩
  -- what was timed out is marked behind the sweep, so the access has nothing more to announce
  rw [expirations_lookup act id ctx (hbehind.disturbance.trans hcalm) hbehind.passive, hbehind.overdue,
    ite_self, Nat.add_zero]
  exact expirations_of_swept hswept hcalm id

/-- Two sessions are timed out in a store that has no room for a third one. Both are marked by a sweep,
while an access marks the one that it replaces. -/
theorem sweep_is_transparent_in_full_store :
    ∃ e e' : Engine, ∃ id : Id, ∃ n,
      e.store.limit = 2 ∧ e.store.size = 2 ∧ e.disturbance = .calm ∧ e.Passive ∧
      e.clock.Rests 3 ∧ e.store.contains e.draw.1 = false ∧
      e.store.contains (Id.ofWords (1, 0)) = false ∧
      runOp (perform 0) Manager.sweep { e with source := fun n => (1, n.toUInt64), drawn := 0 } =
        (.ok n, e') ∧
      Alike (runOp (perform 0) (Manager.lookup id ⟨none⟩) e)
        (runOp (perform 0) (Manager.lookup id ⟨none⟩) e') ∧
      e.expirations id = 0 ∧
      (runOp (perform 0) (Manager.lookup id ⟨none⟩) e).2.expirations id = 1 ∧
      (runOp (perform 0) (Manager.lookup id ⟨none⟩) e').2.expirations id = 1 := by
  let e := after 1 [.start (some "10.0.0.1"), .start none, .advanceClock 1800001, .listen grumbler]
    (blank { store := { maxSessions := 2 } } (.still 7) (fun n => (0, n.toUInt64)) .silent)
  have hpassive : e.Passive := by
    intro ear hear ev n
    rw [List.mem_singleton.1 hear]
    rfl
  have hcalm : e.disturbance = .calm := eq_calm (by decide +kernel)
  have hstill : e.clock.Rests 3 := by decide +kernel
  have hfree : e.store.contains e.draw.1 = false := by decide +kernel
  have hfree' : e.store.contains (Id.ofWords (1, 0)) = false := by decide +kernel
  have hzero : e.expirations (Id.ofWords (0, 0)) = 0 := by decide +kernel
  have hone : e.overdue (Id.ofWords (0, 0)) = 1 := by decide +kernel
  have hens : e.ensureBackground.1 = .ok () := by decide +kernel
  obtain ⟨n, e', hrun, halike, hcount', hcount⟩ := sweep_is_transparent (perform 0) (e := e)
    (Id.ofWords (0, 0)) ⟨none⟩ (fun n => (1, n.toUInt64)) 0 hcalm hpassive hstill
    (.inr ⟨hfree, hfree'⟩)
  rw [if_pos ⟨by decide, hens⟩, hzero, hone] at hcount
  rw [hzero, hone] at hcount'
  exact ⟨e, e', _, n, by decide +kernel, by decide +kernel, hcalm, hpassive, hstill, hfree, hfree',
    hrun, halike, hzero, hcount, hcount'⟩

/-- Where a timer cannot be switched on, an access alone does not get as far as to mark the session that
is timed out, but a sweep in front of it does. -/
theorem sweep_shows_behind_refusing_timer :
    ∃ (e₀ e : Engine) (r : Record),
      Engine.new {} (.still 7) (fun n => (0, n.toUInt64)) .silent = .ok e₀ ∧
      e = after 1 [.start none, .setTimer (some "F") (.standIn .onFails), .advanceClock 1800001] e₀ ∧
      e.disturbance = .calm ∧ e.Passive ∧ e.clock.Rests 3 ∧ r.id ≠ [] ∧
      e.store.read r.id = some r ∧ r.validity e.clock.now = .timedOut ∧ e.expirations r.id = 0 ∧
      (runOp (perform 0) (Manager.lookup r.id ⟨none⟩) e).1 = .error (.foreign "no threads left") ∧
      (runOp (perform 0) (Manager.lookup r.id ⟨none⟩) e).2.expirations r.id = 0 ∧
      (runOp (perform 0) Manager.sweep e).2.expirations r.id = 1 := by
  let e := after 1 [.start none, .setTimer (some "F") (.standIn .onFails), .advanceClock 1800001]
    (blank {} (.still 7) (fun n => (0, n.toUInt64)) .silent)
  have hcalm : e.disturbance = .calm := eq_calm (by decide +kernel)
  have hpassive : e.Passive := passive_of_isEmpty (by decide +kernel)
  exact ⟨_, e, Record.new (Id.ofWords (0, 0)) 7 none 1800000, rfl, rfl, hcalm, hpassive,
    by decide +kernel, by decide, by decide +kernel, by decide +kernel, by decide +kernel,
    by decide +kernel, by decide +kernel, by decide +kernel⟩

end Engine
end Sessions
