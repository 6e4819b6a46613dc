import Sessions.Proofs.Manager.Lookup

/-!
# Sessions.Proofs.Manager.Sweep

What a sweep marks, for every content of the store and every set of sessions whose updates fail, with
listeners that ask for nothing.

* `Record.Due` is what a sweep has to mark: a session that is timed out, if it can be updated.
* `Engine.Marked e e' rs now` says that of the sessions `rs` those that are due were marked, counted
  and announced, and that nothing else became of them.
* `marked_sweepOne`: one session of a sweep. `marked_sweepAll`: all of them, by induction on those
  that are left.
* `sweep_marks_due`: the whole, and that the next sweep finds nothing to do.
-/

namespace Sessions

namespace Record

/-- A session that a sweep marks: it is timed out, and is none of those whose updates fail. -/
def Due (failing : List Id) (now : Timestamp) (r : Record) : Prop :=
  r.validity now = .timedOut ∧ r.id ∉ failing

instance (failing : List Id) (now : Timestamp) : DecidablePred (Due failing now) :=
  fun _ => inferInstanceAs (Decidable (_ ∧ _))

/-- A record behind a sweep. -/
def swept (failing : List Id) (now : Timestamp) (r : Record) : Record :=
  if r.Due failing now then r.marked else r

/-- Those of some records that are due, in their order. -/
def dueAmong (failing : List Id) (now : Timestamp) (rs : List Record) : List Record :=
  rs.filter fun r => r.Due failing now

variable {failing : List Id} {now : Timestamp} {r : Record}

theorem mem_dueAmong {rs : List Record} :
    r ∈ dueAmong failing now rs ↔ r ∈ rs ∧ r.Due failing now := by
  rw [dueAmong, List.mem_filter, decide_eq_true_eq]

theorem dueAmong_cons_of_due (h : r.Due failing now) (rs : List Record) :
    dueAmong failing now (r :: rs) = r :: dueAmong failing now rs :=
  List.filter_cons_of_pos (decide_eq_true h)

theorem dueAmong_cons_of_not_due (h : ¬r.Due failing now) (rs : List Record) :
    dueAmong failing now (r :: rs) = dueAmong failing now rs :=
  List.filter_cons_of_neg (by rwa [decide_eq_true_eq])

theorem Due.live (h : r.Due failing now) : r.isTerminal = false :=
  isTerminal_of_validity (Or.inr h.1)

theorem swept_of_due (h : r.Due failing now) : r.swept failing now = r.marked := if_pos h

theorem swept_of_not_due (h : ¬r.Due failing now) : r.swept failing now = r := if_neg h

theorem swept_id (failing : List Id) (now : Timestamp) (r : Record) :
    (r.swept failing now).id = r.id := by
  unfold swept
  split <;> rfl

/-- Nothing is left to do about a record that was swept. -/
theorem not_due_swept (failing : List Id) (now : Timestamp) (r : Record) :
    ¬(r.swept failing now).Due failing now := by
  intro hdue
  by_cases h : r.Due failing now
  · rw [swept_of_due h] at hdue
    have hexpired := validity_marked h.live now
    rw [hdue.1] at hexpired
    cases hexpired
  · rw [swept_of_not_due h] at hdue
    exact h hdue

end Record

namespace Engine

variable {act : Act} {e e' e'' : Engine} {r : Record} {rs : List Record} {now : Timestamp}

/-! ## Marking -/

/-- Of the given sessions those that are due were marked, counted and announced, in their order; and
nothing else became of the records. -/
structure Marked (e e' : Engine) (rs : List Record) (now : Timestamp) : Prop where
  read : ∀ id, e'.store.read id =
    (e.store.read id).map fun x => if x ∈ rs then x.swept e.disturbance.poisoned now else x
  announced : e'.announced = e.announced ++
    (Record.dueAmong e.disturbance.poisoned now rs).map fun r => (.expiration, r.marked)
  stats : e'.stats = { e.stats with expired := e.stats.expired +
    (Record.dueAmong e.disturbance.poisoned now rs).length }
  disturbance : e'.disturbance = e.disturbance
  passive : e'.Passive

namespace Marked

theorem nil (hpassive : e.Passive) (now : Timestamp) : Marked e e [] now := by
  refine ⟨fun id => ?_, ?_, rfl, rfl, hpassive⟩
  · cases e.store.read id <;> simp
  · exact (List.append_nil _).symm

theorem of_not_due (hpassive : e.Passive) (h : ¬r.Due e.disturbance.poisoned now) :
    Marked e e [r] now := by
  refine ⟨fun id => ?_, ?_, ?_, rfl, hpassive⟩
  rotate_left
  · rw [Record.dueAmong_cons_of_not_due h]
    exact (List.append_nil _).symm
  · rw [Record.dueAmong_cons_of_not_due h]
    rfl
  cases e.store.read id with
  | none => rfl
  | some x =>
    by_cases hx : x = r
    · simp [hx, Record.swept_of_not_due h]
    · simp [hx]

theorem of_marking (act : Act) (hpassive : e.Passive) (hread : e.store.read r.id = some r)
    (hdue : r.Due e.disturbance.poisoned now) : Marked e (e.marking act r) [r] now := by
  obtain ⟨g, log, hmarking, hpassive'⟩ := marking_of_passive act hpassive r
  rw [hmarking] at hpassive' ⊢
  have hamong := Record.dueAmong_cons_of_due hdue []
  refine ⟨fun id => ?_, ?_, by rw [hamong]; rfl, rfl, hpassive'⟩
  · change (e.store.rewrite r.marked).read id = _
    rw [Store.read_rewrite, Record.marked_id]
    by_cases hid : id = r.id
    · rw [if_pos hid, hid, hread]
      simp [Record.swept_of_due hdue]
    · rw [if_neg hid]
      cases hget : e.store.read id with
      | none => rfl
      | some x =>
        have hx : x ≠ r := fun heq => hid (heq ▸ (Roster.id_of_get? hget).symm)
        simp [hx]
  · rw [hamong]
    exact announced_append (e := e) (l := [.stored _, .told .expiration r.marked]) rfl

theorem note (h : Marked e e' rs now) (level : Level) (message : Text) :
    Marked e (e'.note level message) rs now :=
  ⟨h.read, h.announced, h.stats, h.disturbance, h.passive⟩

/-- Sessions of different ids do not touch each other. -/
theorem cons (h : Marked e e' [r] now) (h' : Marked e' e'' rs now)
    (hnew : r.id ∉ rs.map (·.id)) : Marked e e'' (r :: rs) now := by
  have hpoisoned : e'.disturbance.poisoned = e.disturbance.poisoned := by rw [h.disturbance]
  have hamong : Record.dueAmong e.disturbance.poisoned now [r] ++
      Record.dueAmong e.disturbance.poisoned now rs =
        Record.dueAmong e.disturbance.poisoned now (r :: rs) :=
    (List.filter_append [r] rs).symm
  refine ⟨fun id => ?_, ?_, ?_, h'.disturbance.trans h.disturbance, h'.passive⟩
  · rw [h'.read id, h.read id, hpoisoned, Option.map_map]
    congr 1
    funext x
    -- the record of `r` was swept in its own turn and is none of those that follow
    by_cases hx : x = r
    · subst hx
      have hgone : x.swept e.disturbance.poisoned now ∉ rs := by
        intro hmem
        have := List.mem_map_of_mem (f := (·.id)) hmem
        rw [Record.swept_id] at this
        exact hnew this
      simp [hgone]
    · simp [hx]
  · rw [h'.announced, h.announced, hpoisoned, List.append_assoc, ← List.map_append, hamong]
  · rw [h'.stats, h.stats, hpoisoned, ← hamong, List.length_append, Nat.add_assoc]

theorem read_other (h : Marked e e' [r] now) {x : Record} (hread : e.store.read x.id = some x)
    (hx : x.id ≠ r.id) : e'.store.read x.id = some x := by
  have hne : x ≠ r := fun heq => hx (congrArg Record.id heq)
  rw [h.read, hread]
  simp [hne]

end Marked

/-! ## One session -/

/-- What a sweep does to one session: it goes through, or the update fails; either way the session
is marked exactly if it is due. -/
theorem marked_sweepOne (act : Act) (now : Timestamp) (hcalm : e.Undisturbed)
    (hpassive : e.Passive) (hread : e.store.read r.id = some r) :
    ∃ e', Marked e e' [r] now ∧
      (runOp act (Manager.sweepOne r now) e = (.ok (decide (r.Due e.disturbance.poisoned now)), e') ∨
        ¬r.Due e.disturbance.poisoned now ∧
          runOp act (Manager.sweepOne r now) e = (.error (Disturbance.fault "update"), e')) := by
  by_cases hnow : r.validity now = .timedOut
  · have hexpire := runOp_expire_of_timedOut act hcalm hread hnow
    by_cases hfails : r.id ∈ e.disturbance.poisoned
    · have hdue : ¬r.Due e.disturbance.poisoned now := fun h => h.2 hfails
      rw [updateNow_of_poisoned (r := r.marked) hfails] at hexpire
      refine ⟨e, .of_not_due hpassive hdue, .inr ⟨hdue, ?_⟩⟩
      rw [Manager.sweepOne, if_pos hnow]
      exact runOp_bind_error hexpire
    · have hdue : r.Due e.disturbance.poisoned now := ⟨hnow, hfails⟩
      have hupdate := Store.update_ok_of_live (r := r.marked) hread hdue.live
      rw [updateNow_of_not_poisoned (r := r.marked) hfails hupdate] at hexpire
      refine ⟨_, (Marked.of_marking act hpassive hread hdue).note .debug
        ("Expired idle session " ++ r.id), .inl ?_⟩
      rw [Manager.sweepOne, if_pos hnow, runOp_bind_ok hexpire]
      simp only
      rw [runOp_bind_ok (runOp_announce _ _), runOp_bind_ok (runOp_log _ _), decide_eq_true hdue]
      rfl
  · have hdue : ¬r.Due e.disturbance.poisoned now := fun h => hnow h.1
    refine ⟨e, .of_not_due hpassive hdue, .inl ?_⟩
    rw [Manager.sweepOne, if_neg hnow, decide_eq_false hdue]
    rfl

/-! ## All sessions -/

/-- The loop of a sweep, over sessions that are stored under different ids: it goes to the end, and
marks those that are due. -/
theorem marked_sweepAll (act : Act) (now : Timestamp) (hcalm : e.Undisturbed) (hpassive : e.Passive)
    (hstored : ∀ r ∈ rs, e.store.read r.id = some r) (hdistinct : (rs.map (·.id)).Nodup)
    (t : Manager.Tally) :
    ∃ failed e', runOp act (Manager.sweepAll now rs t) e =
        (.ok ⟨t.marked + (Record.dueAmong e.disturbance.poisoned now rs).length, failed⟩, e') ∧
      Marked e e' rs now := by
  -- each session is found as it was listed, since those before it have other ids
  induction rs generalizing e t with
  | nil => exact ⟨t.failed, e, rfl, .nil hpassive now⟩
  | cons r rs ih =>
    rw [List.map_cons, List.nodup_cons] at hdistinct
    obtain ⟨e₁, hone, hrun⟩ := marked_sweepOne act now hcalm hpassive
      (hstored r List.mem_cons_self)
    -- the rest is swept from any engine that is behind the first session
    have hrest : ∀ {e₁ : Engine}, Marked e e₁ [r] now → ∀ t : Manager.Tally,
        ∃ failed e', runOp act (Manager.sweepAll now rs t) e₁ = (.ok ⟨t.marked +
            (Record.dueAmong e.disturbance.poisoned now rs).length, failed⟩, e') ∧
          Marked e e' (r :: rs) now := by
      intro e₁ hone t
      have hcalm₁ : e₁.Undisturbed := by
        rw [Undisturbed, hone.disturbance]
        exact hcalm
      have hstored₁ : ∀ x ∈ rs, e₁.store.read x.id = some x := by
        intro x hx
        have hid : x.id ≠ r.id := fun heq => hdistinct.1 (heq ▸ List.mem_map_of_mem hx)
        exact hone.read_other (hstored x (List.mem_cons_of_mem r hx)) hid
      obtain ⟨failed, e', hrun, hmarked⟩ := ih hcalm₁ hone.passive hstored₁ hdistinct.2 t
      rw [hone.disturbance] at hrun
      exact ⟨failed, e', hrun, hone.cons hmarked hdistinct.1⟩
    rw [Manager.sweepAll, runOp_bind_ok (runOp_attempt _)]
    rcases hrun with hrun | ⟨hdue, hrun⟩
    · by_cases hdue : r.Due e.disturbance.poisoned now
      · rw [hrun, decide_eq_true hdue, Record.dueAmong_cons_of_due hdue, List.length_cons,
          ← Nat.add_assoc, Nat.add_right_comm]
        exact hrest hone { t with marked := t.marked + 1 }
      · rw [hrun, decide_eq_false hdue, Record.dueAmong_cons_of_not_due hdue]
        exact hrest hone t
    · rw [hrun, Record.dueAmong_cons_of_not_due hdue]
      exact hrest (hone.note .warn _) { t with failed := t.failed + 1 }

/-! ## The sweep -/

/-- Of all stored sessions exactly those that are due were marked, and announced once each; they were
counted, and so was the sweep. -/
structure Swept (e e' : Engine) (now : Timestamp) : Prop where
  read : ∀ id, e'.store.read id = (e.store.read id).map (·.swept e.disturbance.poisoned now)
  announced : e'.announced = e.announced ++
    (Record.dueAmong e.disturbance.poisoned now e.store.records.list).map
      fun r => (.expiration, r.marked)
  stats : e'.stats = { e.stats with
    expired := e.stats.expired +
      (Record.dueAmong e.disturbance.poisoned now e.store.records.list).length
    sweeps := e.stats.sweeps.map (· + 1) }
  disturbance : e'.disturbance = e.disturbance
  passive : e'.Passive

/-- Only live sessions are due, so it is enough to go through those. -/
theorem dueAmong_live (failing : List Id) (now : Timestamp) (s : Store) :
    Record.dueAmong failing now s.live = Record.dueAmong failing now s.records.list := by
  unfold Record.dueAmong Store.live Roster.live
  rw [List.filter_filter]
  refine List.filter_congr fun r _ => ?_
  by_cases hdue : r.Due failing now
  · simp [hdue, hdue.live]
  · simp [hdue]

theorem Marked.swept (h : Marked e e' e.store.live now) :
    Swept e ((e'.counting .sweeps)) now := by
  refine ⟨fun id => ?_, ?_, ?_, h.disturbance, h.passive⟩
  · refine (h.read id).trans ?_
    cases hget : e.store.read id with
    | none => rfl
    | some x =>
      simp only [Option.map_some]
      by_cases hlive : x ∈ e.store.live
      · rw [if_pos hlive]
      · have hdue : ¬x.Due e.disturbance.poisoned now := by
          intro hdue
          refine hlive (List.mem_filter.2 ⟨Roster.mem_of_get? hget, ?_⟩)
          simp [hdue.live]
        rw [if_neg hlive, Record.swept_of_not_due hdue]
  · rw [← dueAmong_live]
    exact h.announced
  · rw [← dueAmong_live, counting, h.stats]
    rfl

theorem Swept.note (h : Swept e e' now) (level : Level) (message : Text) :
    Swept e (e'.note level message) now :=
  ⟨h.read, h.announced, h.stats, h.disturbance, h.passive⟩

/-- A sweep goes through. It answers how many sessions were due, and leaves them swept. -/
theorem runOp_sweep (act : Act) (hpassive : e.Passive) (hcalm : e.Undisturbed)
    (hlists : e.disturbance.listFails = false) :
    ∃ e', runOp act Manager.sweep e =
        (.ok (Record.dueAmong e.disturbance.poisoned e.clock.now e.store.records.list).length, e') ∧
      Swept e e' e.clock.now := by
  let e₀ := (e.note .info "Validating all active sessions...").afterReading
  have hlive : runOp act Manager.live e₀ = (.ok e.store.live, e₀) := by
    have hlist : e₀.listNow = .ok e.store.live := by
      have hguard : Disturbance.guard e₀.disturbance.listFails "list" = .ok () := by
        change Disturbance.guard e.disturbance.listFails "list" = _
        rw [hlists]
        rfl
      unfold listNow
      rw [hguard]
      rfl
    have hcalm₀ : e₀.Undisturbed := hcalm
    rw [runOp_live act hcalm₀, hlist]
  have hdistinct : (e.store.live.map (·.id)).Nodup := Roster.nodup_filter e.store.records.distinct
  have hstored : ∀ r ∈ e.store.live, e₀.store.read r.id = some r :=
    fun r hr => Roster.get?_of_mem (List.mem_of_mem_filter hr)
  obtain ⟨failed, e₁, hrun, hmarked⟩ := marked_sweepAll (e := e₀) act e.clock.now hcalm
    hpassive hstored hdistinct ⟨0, 0⟩
  have hcount : Manager.Tally.marked ⟨0, 0⟩ +
      (Record.dueAmong e₀.disturbance.poisoned e.clock.now e.store.live).length =
        (Record.dueAmong e.disturbance.poisoned e.clock.now e.store.records.list).length := by
    rw [← dueAmong_live, Nat.zero_add]
    rfl
  rw [hcount] at hrun
  have hfrom : ((e.note .info "Validating all active sessions...").clock.now) = e.clock.now := rfl
  have hswept : Swept e₀ (e₁.counting .sweeps) e.clock.now := hmarked.swept
  have hswept : Swept e (e₁.counting .sweeps) e.clock.now :=
    ⟨hswept.read, hswept.announced, hswept.stats, hswept.disturbance, hswept.passive⟩
  let due := Record.dueAmong e.disturbance.poisoned e.clock.now e.store.records.list
  refine ⟨(e₁.counting .sweeps).note .info (Manager.Tally.text ⟨due.length, failed⟩), ?_,
    hswept.note _ _⟩
  rw [Manager.sweep, runOp_bind_ok (runOp_log _ _), runOp_bind_ok runOp_clock,
    runOp_bind_ok hlive, hfrom, runOp_bind_ok hrun, runOp_bind_ok (runOp_count .sweeps),
    runOp_bind_ok (runOp_log _ _)]
  rfl

theorem Swept.dueAmong_eq_nil (h : Swept e e' now) :
    Record.dueAmong e'.disturbance.poisoned now e'.store.records.list = [] := by
  rw [h.disturbance, List.eq_nil_iff_forall_not_mem]
  intro r hmem
  obtain ⟨hr, hdue⟩ := Record.mem_dueAmong.1 hmem
  have hread := (h.read r.id).symm.trans (Roster.get?_of_mem hr)
  obtain ⟨x, _, rfl⟩ := Option.map_eq_some_iff.1 hread
  exact Record.not_due_swept _ _ x hdue

/-- **A sweep marks what is due.** Whatever the store holds and whichever updates fail, with listeners
that ask for nothing: a sweep never fails. Exactly the sessions that are timed out at its reading of
the clock, and whose updates do not fail, are marked; it answers how many there are, and counts and
announces each of them once. A second sweep at the same time answers zero, changes no record and
announces nothing. -/
theorem sweep_marks_due (act : Act) {e : Engine} (hpassive : e.Passive) (hcalm : e.Undisturbed)
    (hlists : e.disturbance.listFails = false) :
    ∃ e', runOp act Manager.sweep e =
        (.ok (Record.dueAmong e.disturbance.poisoned e.clock.now e.store.records.list).length, e') ∧
      Swept e e' e.clock.now ∧
      ∀ clock : Clock, clock.now = e.clock.now →
        ∃ e'', runOp act Manager.sweep { e' with clock } = (.ok 0, e'') ∧
          (∀ id, e''.store.read id = e'.store.read id) ∧ e''.announced = e'.announced ∧
          e''.stats = { e'.stats with sweeps := e'.stats.sweeps.map (· + 1) } := by
  obtain ⟨e', hrun, hswept⟩ := runOp_sweep act hpassive hcalm hlists
  refine ⟨e', hrun, hswept, fun clock hclock => ?_⟩
  have hcalm' : ({ e' with clock } : Engine).Undisturbed := by
    change e'.disturbance.hooks = []
    rw [hswept.disturbance]
    exact hcalm
  have hlists' : ({ e' with clock } : Engine).disturbance.listFails = false := by
    change e'.disturbance.listFails = false
    rw [hswept.disturbance, hlists]
  have hnone := hswept.dueAmong_eq_nil
  obtain ⟨e'', hrun', hswept'⟩ := runOp_sweep act (e := { e' with clock }) hswept.passive hcalm'
    hlists'
  have hread := hswept'.read
  have hannounced := hswept'.announced
  have hstats := hswept'.stats
  simp only [hclock, hnone, List.length_nil, List.map_nil, List.append_nil, Nat.add_zero]
    at hrun' hread hannounced hstats
  refine ⟨e'', hrun', fun id => ?_, hannounced, hstats⟩
  rw [hread id]
  cases hget : e'.store.read id with
  | none => rfl
  | some x =>
    -- otherwise it would be one of those that are due
    have hdue : ¬x.Due e'.disturbance.poisoned e.clock.now := by
      intro hdue
      have hmem := Record.mem_dueAmong.2 ⟨Roster.mem_of_get? hget, hdue⟩
      rw [hnone] at hmem
      exact List.not_mem_nil hmem
    rw [Option.map_some, Record.swept_of_not_due hdue]

/-- A listener that fails whatever it is told. -/
def grumbler : Listener Command where
  name := "grumbler"
  hears _ := true
  react _ _ := ⟨[], some "too late"⟩

/-- Of three sessions two are timed out, and the update of the first of them fails. -/
theorem sweep_marks_due_behind_failing_update :
    ∃ e : Engine,
      e = after 1 [.start none, .start none, .poison (.started 1 []), .advanceClock 1800001,
          .start none, .listen grumbler]
        (blank {} (.still 7) (fun n => (0, n.toUInt64)) .silent) ∧
      ∃ e', runOp (perform 0) Manager.sweep e = (.ok 1, e') ∧
        e'.store.read (Id.ofWords (0, 0)) = some (Record.new (Id.ofWords (0, 0)) 7 none 1800000) ∧
        e'.store.read (Id.ofWords (0, 1)) =
          some (Record.new (Id.ofWords (0, 1)) 7 none 1800000).marked ∧
        e'.announced = e.announced ++
          [(.expiration, (Record.new (Id.ofWords (0, 1)) 7 none 1800000).marked)] ∧
        (runOp (perform 0) Manager.sweep { e' with clock := e.clock }).1 = .ok 0 := by
  let e := after 1 [.start none, .start none, .poison (.started 1 []), .advanceClock 1800001,
      .start none, .listen grumbler]
    (blank {} (.still 7) (fun n => (0, n.toUInt64)) .silent)
  have hpassive : e.Passive := by
    intro ear hear ev n
    rw [List.mem_singleton.1 hear]
    rfl
  have hdue : Record.dueAmong e.disturbance.poisoned e.clock.now e.store.records.list =
      [Record.new (Id.ofWords (0, 1)) 7 none 1800000] := by decide +kernel
  have hcalm : e.Undisturbed := List.isEmpty_iff.1 (by decide +kernel)
  have hlists : e.disturbance.listFails = false := by decide +kernel
  obtain ⟨e', hrun, hswept, hagain⟩ := sweep_marks_due (perform 0) hpassive hcalm hlists
  have hread := hswept.read
  have hannounced := hswept.announced
  rw [hdue] at hrun hannounced
  refine ⟨e, rfl, e', hrun, ?_, ?_, hannounced, ?_⟩
  · rw [hread]
    decide +kernel
  · rw [hread]
    decide +kernel
  · obtain ⟨e'', hrun', _⟩ := hagain e.clock rfl
    exact congrArg Prod.fst hrun'

end Engine
end Sessions
