import Sessions.Proofs.Sweeper.Callers

/-!
# Sessions.Proofs.Sweeper.Task

A task that calls the sweeper it runs for. Whoever switches a sweeper off and on again waits, in
between, for the end of the thread. The task is that thread and does not wait, so that its thread
finds the flag up when it comes back from the task, and goes on beside the new one.

* `Traffic.Inside` is the invariant while the task calls: the threads are the task's own and, once the
  sweeper was switched off, the one that was started last.
* `Traffic.threads_that_run_again`: how many threads begin another run, for any traffic, for orderly
  callers, and behind the calls of a task.
-/

namespace Sessions
namespace Sweeper

/-- Something that the task does on the thread, or that another thread does by itself. -/
def Action.Within (w : WorkerId) : Action → Prop
  | .call c _ | .resume c _ => c = .worker w
  | .enter v | .wake v | .elapse v | .finish v _ => v ≠ w

instance (w : WorkerId) : DecidablePred (Action.Within w) := fun a => by
  unfold Action.Within
  split <;> infer_instance

namespace Traffic

variable {t t' : Traffic} {a : Action} {u v w : WorkerId} {off : Prop}

/-- The task is about to call: it runs on the thread that the sweeper answers for, and there is no
other one. -/
structure InTask (w : WorkerId) (t : Traffic) : Prop where
  running : t.sweeper.running = true
  thread : t.sweeper.thread = some w
  sweeping : t.sweeper.phase w = .sweeping
  idle : t.pending (.worker w) = none
  alone : ∀ v, t.sweeper.Alive v → v = w

/-- The sweeper was off at some time. -/
def SwitchedOff (t : Traffic) (as : List Action) : Prop :=
  ∃ before, before <+: as ∧ (t.after before).sweeper.running = false

/-- The invariant while the task calls. As long as the sweeper was not off, there is its own thread
only; behind that, while the sweeper is on, there is one more, and while it is off, none but one that
the task waits for. -/
structure Inside (w : WorkerId) (off : Prop) (t : Traffic) : Prop where
  sweeping : t.sweeper.phase w = .sweeping
  on : t.sweeper.running = true → t.pending (.worker w) = none ∧
    ((¬off ∧ t.sweeper.thread = some w ∧ ∀ v, t.sweeper.Alive v → v = w) ∨
      (off ∧ ∃ u, u ≠ w ∧ t.sweeper.thread = some u ∧ t.sweeper.Alive u ∧
        ∀ v, t.sweeper.Alive v → v = w ∨ v = u))
  down : t.sweeper.running = false → off ∧ (t.sweeper.thread = none ∨ t.sweeper.thread = some w) ∧
    ∀ v, v ≠ w → t.sweeper.Alive v →
      ∃ rest, rest ≠ .start ∧ t.pending (.worker w) = some ⟨some v, rest⟩
  starting : ∀ taken, t.pending (.worker w) = some ⟨taken, .start⟩ →
    t.sweeper.thread = none ∧ (taken = none ∨ taken = some w)

namespace Inside

theorem alive (h : Inside w off t) : t.sweeper.Alive w := by
  rw [Alive, h.sweeping]
  simp

theorem congr (h : Inside w off t) {off' : Prop} (hoff : off ↔ off') : Inside w off' t := by
  have heq : off = off' := propext hoff
  exact heq ▸ h

theorem moves (h : Inside w off t) (t' : Traffic) (hmoves : Moves v t.sweeper t'.sweeper)
    (hv : v ≠ w) (hpending : t'.pending = t.pending) : Inside w off t' where
  sweeping := (hmoves.others w hv.symm).trans h.sweeping
  on hrunning := by
    have hon := hmoves.running.symm.trans hrunning
    rw [hpending, hmoves.thread]
    refine (h.on hon).imp_right (Or.imp ?_ ?_)
    · rintro ⟨hoff, hthread, halone⟩
      exact ⟨hoff, hthread, fun x hx => halone x (hmoves.alive hx)⟩
    · rintro ⟨hoff, u, hu, hthread, halive, hall⟩
      refine ⟨hoff, u, hu, hthread, ?_, fun x hx => hall x (hmoves.alive hx)⟩
      by_cases huv : u = v
      · subst huv
        exact hmoves.goesOn hon halive
      · rwa [Alive, hmoves.others u huv]
  down hrunning := by
    rw [hpending, hmoves.thread]
    obtain ⟨hoff, hthread, hothers⟩ := h.down (hmoves.running.symm.trans hrunning)
    exact ⟨hoff, hthread, fun x hx hxalive => hothers x hx (hmoves.alive hxalive)⟩
  starting := by
    rw [hpending, hmoves.thread]
    exact h.starting

/-- A section behind which the sweeper is off. -/
theorem put_off (h : Inside w off t) {p : Sweeper × Option Stage}
    (hworkers : p.1.workers = t.sweeper.workers) (hoff : p.1.running = false)
    (hthread : p.1.thread = none ∨ p.1.thread = some w)
    (hothers : ∀ v, v ≠ w → t.sweeper.Alive v →
      ∃ rest, rest ≠ .start ∧ p.2 = some ⟨some v, rest⟩)
    (hstarting : ∀ taken, p.2 = some ⟨taken, .start⟩ →
      p.1.thread = none ∧ (taken = none ∨ taken = some w)) :
    Inside w True (t.put (.worker w) p) where
  sweeping := (phase_of_workers hworkers w).trans h.sweeping
  on hon := absurd (hoff.symm.trans hon) (by simp)
  down _ := by
    refine ⟨trivial, hthread, fun v hv hvalive => ?_⟩
    rw [pending_put, if_pos rfl]
    exact hothers v hv ((alive_of_workers hworkers).1 hvalive)
  starting taken htaken := by
    rw [pending_put, if_pos rfl] at htaken
    exact hstarting taken htaken

/-- While the sweeper is off and the task does not wait, there is no other thread. -/
theorem not_alive_of_idle (h : Inside w off t) (hidle : t.pending (.worker w) = none)
    (hoff : t.sweeper.running = false) (v : WorkerId) (hv : v ≠ w) : ¬t.sweeper.Alive v := by
  intro halive
  obtain ⟨rest, _, hpending⟩ := (h.down hoff).2.2 v hv halive
  rw [hidle] at hpending
  cases hpending

/-- A section that changes nothing that the invariant is about. -/
theorem put_same (h : Inside w off t) (hidle : t.pending (.worker w) = none)
    {p : Sweeper × Option Stage} (hworkers : p.1.workers = t.sweeper.workers)
    (hthread : p.1.thread = t.sweeper.thread) (hrunning : p.1.running = t.sweeper.running)
    (hstage : p.2 = none) : Inside w off (t.put (.worker w) p) where
  sweeping := (phase_of_workers hworkers w).trans h.sweeping
  on hon := by
    rw [pending_put, if_pos rfl]
    refine ⟨hstage, (h.on (hrunning.symm.trans hon)).2.imp ?_ ?_⟩
    · rintro ⟨hoff, hthread', halone⟩
      exact ⟨hoff, hthread.trans hthread', fun v hv => halone v ((alive_of_workers hworkers).1 hv)⟩
    · rintro ⟨hoff, u, hu, hthread', halive, hall⟩
      exact ⟨hoff, u, hu, hthread.trans hthread', (alive_of_workers hworkers).2 halive,
        fun v hv => hall v ((alive_of_workers hworkers).1 hv)⟩
  down hoff := by
    have hoff' := hrunning.symm.trans hoff
    obtain ⟨hoff'', hthread', _⟩ := h.down hoff'
    refine ⟨hoff'', ?_, fun v hv hvalive => ?_⟩
    · change p.1.thread = none ∨ p.1.thread = some w
      rwa [hthread]
    · exact absurd ((alive_of_workers hworkers).1 hvalive) (h.not_alive_of_idle hidle hoff' v hv)
  starting taken htaken := by
    rw [pending_put, if_pos rfl, hstage] at htaken
    cases htaken

theorem call (h : Inside w off t) (hidle : t.pending (.worker w) = none) (k : Call) :
    Inside w (off ∨ (t.sweeper.first (.worker w) k).1.running = false)
      (t.put (.worker w) (t.sweeper.first (.worker w) k)) := by
  have hworkers := workers_first t.sweeper (.worker w) k
  have hnone := h.not_alive_of_idle hidle
  cases hopens : opens_first t.sweeper (.worker w) k with
  | nothing hthread hrunning hstage =>
    refine (h.put_same hidle hworkers hthread hrunning hstage).congr ?_
    rw [hrunning]
    exact ⟨Or.inl, fun hoff => hoff.elim id fun hoff => (h.down hoff).1⟩
  | stale hk hoff hthread hrunning hstage =>
    refine (h.put_off hworkers hrunning (Or.inl hthread) ?_ ?_).congr (by simp [hrunning])
    · exact fun v hv hvalive => absurd hvalive (hnone hoff v hv)
    · intro taken htaken
      rw [hstage, Option.some.injEq, Stage.mk.injEq] at htaken
      exact ⟨hthread, htaken.1 ▸ (h.down hoff).2.1⟩
  | own rest hrest hdestroy hon hrunning hself hthread hstage =>
    refine (h.put_off hworkers hrunning (Or.inr (hthread.trans hself)) ?_ ?_).congr
      (by simp [hrunning])
    · intro v hv hvalive
      rcases (h.on hon).2 with ⟨_, _, halone⟩ | ⟨_, u, hu, hthread', _⟩
      · exact absurd (halone v hvalive) hv
      · rw [hself] at hthread'
        exact absurd (Option.some.inj hthread').symm hu
    · exact fun taken htaken => absurd ((opens_first _ _ _).of_start htaken).2.1 (by simp [hon])
  | other rest hrest hdestroy hon hrunning hself hthread hstage =>
    refine (h.put_off hworkers hrunning (Or.inl hthread) ?_ ?_).congr (by simp [hrunning])
    · intro v hv hvalive
      rcases (h.on hon).2 with ⟨_, hthread', _⟩ | ⟨_, u, _, hthread', _, hall⟩
      · exact absurd hthread' hself
      · have hvu := (hall v hvalive).resolve_left hv
        exact ⟨rest, hrest, by rw [hstage, hthread', hvu]⟩
    · exact fun taken htaken => absurd ((opens_first _ _ _).of_start htaken).2.1 (by simp [hon])
  | ending hk hsame hoff hstage =>
    refine (h.put_off hworkers (by rw [hsame, hoff]) ?_ ?_ ?_).congr (by simp [hsame, hoff])
    · rw [hsame]
      exact (h.down hoff).2.1
    · exact fun v hv hvalive => absurd hvalive (hnone hoff v hv)
    · intro taken htaken
      rw [hstage] at htaken
      cases htaken

/-- The start of a thread, beside the one of the task. -/
theorem begins (h : Inside w off t) (hoff : t.sweeper.running = false)
    (hnone : ∀ v, v ≠ w → ¬t.sweeper.Alive v) :
    Inside w off (t.put (.worker w) (t.sweeper.begin.1, none)) where
  sweeping := by
    change t.sweeper.begin.1.phase w = .sweeping
    rw [phase_begin hoff, if_neg (Nat.ne_of_lt h.alive.lt), h.sweeping]
  on _ := by
    refine ⟨by rw [pending_put, if_pos rfl], Or.inr ⟨(h.down hoff).1, t.sweeper.workers.length,
      (Nat.ne_of_lt h.alive.lt).symm, ?_, (alive_begin hoff).2 (Or.inl rfl), fun v hv => ?_⟩⟩
    · rw [Traffic.put, begin_of_off hoff]
    · refine ((alive_begin hoff).1 hv).symm.imp_left fun hvalive => ?_
      exact Classical.byContradiction fun hvw => hnone v hvw hvalive
  down hdown := by
    rw [Traffic.put, begin_of_off hoff] at hdown
    cases hdown
  starting taken htaken := by
    rw [pending_put, if_pos rfl] at htaken
    cases htaken

theorem resume (h : Inside w off t) (available : Bool) :
    Inside w off (t.act (.resume (.worker w) available)) := by
  rcases act_resume t (.worker w) available with hsame |
    ⟨⟨taken, rest⟩, p, hpending, hjoined, hp, hact⟩
  · rwa [hsame]
  have hoff : t.sweeper.running = false := by
    rw [← Bool.not_eq_true]
    intro hon
    rw [(h.on hon).1] at hpending
    cases hpending
  obtain ⟨hoff', hthread, hothers⟩ := h.down hoff
  -- behind the wait there is no other thread: one that is left would be the one waited for
  have hnone : ∀ v, v ≠ w → ¬t.sweeper.Alive v := by
    intro v hv halive
    obtain ⟨rest', _, hv'⟩ := hothers v hv halive
    rw [hpending, Option.some.injEq, Stage.mk.injEq] at hv'
    rw [hv'.1] at hjoined
    exact not_alive_of_joined hjoined (by simpa [Caller.self] using hv.symm) halive
  have hvacuous : ∀ p : Sweeper × Option Stage, ∀ v, v ≠ w → t.sweeper.Alive v →
      ∃ rest, rest ≠ .start ∧ p.2 = some ⟨some v, rest⟩ :=
    fun _ v hv halive => absurd halive (hnone v hv)
  rw [hact]
  have htrue : True ↔ off := ⟨fun _ => hoff', fun _ => trivial⟩
  cases rest with
  | start =>
    obtain ⟨s', hs', rfl⟩ := Option.map_eq_some_iff.1 hp
    rcases second_cases hs' with rfl | ⟨_, _, rfl⟩
    · exact (h.put_off rfl hoff hthread (hvacuous _) (by simp)).congr htrue
    · exact h.begins hoff hnone
  | letGo =>
    cases hp
    exact (h.put_off rfl hoff (Or.inl rfl) (hvacuous _) (by simp)).congr htrue
  | leave =>
    cases hp
    exact (h.put_off rfl hoff hthread (hvacuous _) (by simp)).congr htrue

theorem act (h : Inside w off t) (ha : a.Within w) :
    Inside w (off ∨ (t.act a).sweeper.running = false) (t.act a) := by
  have unchanged : ∀ {t' : Traffic}, Inside w off t' →
      Inside w (off ∨ t'.sweeper.running = false) t' := fun h' =>
    h'.congr ⟨Or.inl, fun hoff => hoff.elim id fun hoff => (h'.down hoff).1⟩
  cases a with
  | call c k =>
    obtain rfl : c = .worker w := ha
    simp only [Traffic.act]
    split
    · rename_i hmay
      simp only [mayCall, decide_eq_true_eq] at hmay
      exact h.call hmay.1 k
    · exact unchanged h
  | resume c available =>
    obtain rfl : c = .worker w := ha
    exact unchanged (h.resume available)
  | enter v => exact unchanged (h.moves (t.act (.enter v)) (moves_enter t.sweeper v) ha rfl)
  | wake v => exact unchanged (h.moves (t.act (.wake v)) (moves_wake t.sweeper v) ha rfl)
  | elapse v => exact unchanged (h.moves (t.act (.elapse v)) (moves_elapse t.sweeper v) ha rfl)
  | finish v failure =>
    simp only [Traffic.act]
    split
    · have hmoves := moves_finish t.sweeper v failure
      exact unchanged (h.moves { t with sweeper := (t.sweeper.finish v failure).1 } hmoves ha rfl)
    · exact unchanged h

end Inside

theorem switchedOff_snoc (as : List Action) (a : Action) :
    t.SwitchedOff (as ++ [a]) ↔
      t.SwitchedOff as ∨ (t.after (as ++ [a])).sweeper.running = false := by
  constructor
  · rintro ⟨before, hbefore, hoff⟩
    rcases List.prefix_concat_iff.1 hbefore with rfl | hbefore
    · exact Or.inr hoff
    · exact Or.inl ⟨before, hbefore, hoff⟩
  · rintro (⟨before, hbefore, hoff⟩ | hoff)
    · exact ⟨before, hbefore.trans (List.prefix_append as [a]), hoff⟩
    · exact ⟨_, List.prefix_refl _, hoff⟩

theorem inside_after (h : t.InTask w) {as : List Action} (has : ∀ a ∈ as, a.Within w) :
    Inside w (t.SwitchedOff as) (t.after as) := by
  induction as using List.reverseRecOn with
  | nil =>
    have hon : ¬t.SwitchedOff [] := by
      rintro ⟨before, hbefore, hoff⟩
      rw [List.prefix_nil.1 hbefore] at hoff
      exact absurd (h.running.symm.trans hoff) (by simp)
    exact ⟨h.sweeping, fun _ => ⟨h.idle, Or.inl ⟨hon, h.thread, h.alone⟩⟩,
      fun hoff => absurd (h.running.symm.trans hoff) (by simp),
      fun taken htaken => absurd (h.idle.symm.trans htaken) (by simp)⟩
  | append_singleton as a ih =>
    have hinside := (ih fun a ha => has a (List.mem_append_left _ ha)).act (has a (by simp))
    rw [← after_snoc] at hinside
    exact hinside.congr (switchedOff_snoc as a).symm

/-- How it stands when the task has called and returned. -/
theorem looping_of_inside (h : Inside w off t) (hidle : t.pending (.worker w) = none)
    {failure : Option Text} (ht' : t.act (.finish w failure) = t') :
    (t'.sweeper.running = false → ∀ v, ¬t'.sweeper.CanRunAgain v) ∧
    (t'.sweeper.running = true → ¬off → ∀ v, t'.sweeper.CanRunAgain v ↔ v = w) ∧
    (t'.sweeper.running = true → off →
      ∃ u, u ≠ w ∧ ∀ v, t'.sweeper.CanRunAgain v ↔ v = w ∨ v = u) := by
  have hmoves := moves_finish t.sweeper w failure
  have hsweeper : t'.sweeper = (t.sweeper.finish w failure).1 := by
    rw [← ht', Traffic.act, if_pos hidle]
  rw [← hsweeper] at hmoves
  have hrunAgain : t'.sweeper.running = true →
      ∀ v, t'.sweeper.CanRunAgain v ↔ t.sweeper.Alive v := by
    intro hon v
    rw [canRunAgain_iff, and_iff_right hon]
    by_cases hv : v = w
    · subst hv
      have hon' := hmoves.running.symm.trans hon
      exact ⟨fun _ => h.alive, fun halive => hmoves.goesOn hon' halive⟩
    · rw [Alive, Alive, hmoves.others v hv]
  refine ⟨fun hoff v hv => ?_, fun hon hnever v => ?_, fun hon hever => ?_⟩
  · exact absurd ((canRunAgain_iff.1 hv).1.symm.trans hoff) (by simp)
  · rw [hrunAgain hon]
    rcases (h.on (hmoves.running.symm.trans hon)).2 with ⟨_, _, halone⟩ | ⟨hever, _⟩
    · exact ⟨halone v, fun hv => hv ▸ h.alive⟩
    · exact absurd hever hnever
  · rcases (h.on (hmoves.running.symm.trans hon)).2 with ⟨hnever, _⟩ | ⟨_, u, hu, _, halive, hall⟩
    · exact absurd hever hnever
    · refine ⟨u, hu, fun v => ?_⟩
      rw [hrunAgain hon]
      exact ⟨hall v, fun hv => hv.elim (fun h' => h' ▸ h.alive) fun h' => h' ▸ halive⟩

theorem fresh_of_new {interval : Millis} {s : Sweeper}
    (hnew : Sweeper.new? true interval = .ok s) : Fresh s := by
  unfold Sweeper.new? at hnew
  split at hnew
  · cases hnew
  · split at hnew <;> cases hnew
    rfl

/-- **Threads that run again.** Any traffic of a new sweeper, with any number of callers.

There is never more than one thread that can begin another run of the task, if and only if no thread
is ever started before all those before it have ended.

That is so for orderly callers: those from outside do not call in the middle of each other's calls,
the task does not enable, and nobody calls behind a destruction.

It is not so for the calls of a task that enables, whatever the other threads do meanwhile. When the
task has called and returned, and the sweeper is off, then no thread runs the task again. If the
sweeper is on and was on all the time, it is the thread of the task alone that does. If it is on and
was off in between, there are two, the thread of the task and another one. -/
theorem threads_that_run_again {interval : Millis} {s : Sweeper}
    (hnew : Sweeper.new? true interval = .ok s) (as : List Action) :
    ((∀ before, before <+: as → ((quiet s).after before).Exclusive) ↔
      ∀ before a, before ++ [a] <+: as → ((quiet s).after before).Starts a →
        ∀ w, ¬((quiet s).after before).sweeper.Alive w) ∧
    ((quiet s).Orderly as → ∀ before, before <+: as → ((quiet s).after before).Exclusive) ∧
    ∀ (w : WorkerId) (calls : List Action) (failure : Option Text) (t t' : Traffic),
      ((quiet s).after as).InTask w → (∀ a ∈ calls, a.Within w) →
      ((quiet s).after as).after calls = t → t.pending (.worker w) = none →
      t.act (.finish w failure) = t' →
      (t'.sweeper.running = false → ∀ v, ¬t'.sweeper.CanRunAgain v) ∧
      (t'.sweeper.running = true → ¬((quiet s).after as).SwitchedOff calls →
        ∀ v, t'.sweeper.CanRunAgain v ↔ v = w) ∧
      (t'.sweeper.running = true → ((quiet s).after as).SwitchedOff calls →
        ∃ u, u ≠ w ∧ ∀ v, t'.sweeper.CanRunAgain v ↔ v = w ∨ v = u) := by
  have hfresh := fresh_of_new hnew
  refine ⟨?_, ?_, ?_⟩
  · exact exclusive_iff (fun v _ hv => absurd hv (hfresh.not_alive v)) as
  · exact fun horderly before hbefore => (sole_after hfresh horderly hbefore).lone.exclusive
  · rintro w calls failure t t' htask hcalls rfl hidle ht'
    exact looping_of_inside (inside_after htask hcalls) hidle ht'

/-- A sweeper for every minute. -/
def minutely : Sweeper :=
  { interval := 60000, generation := 0, running := false, runs := 0, failures := 0, thread := none
    workers := [] }

/-- It is switched on from outside, and its thread comes to run the task. -/
def firstRun : List Action :=
  [.call (.outside 0) .enable, .resume (.outside 0) true, .enter 0, .elapse 0]

/-- The task switches it off and on again. -/
def offAndOn : List Action :=
  [.call (.worker 0) .disable, .resume (.worker 0) true, .call (.worker 0) .enable,
    .resume (.worker 0) true]

theorem inTask_firstRun : ((quiet minutely).after firstRun).InTask 0 where
  running := by decide
  thread := by decide
  sweeping := by decide
  idle := by decide
  alone v hv := by
    have hlt : v < 1 := hv.lt
    exact Nat.lt_one_iff.1 hlt

theorem orderly_firstRun : (quiet minutely).Orderly firstRun := by
  have first : ∀ before c k, before ++ [.call c k] <+: firstRun → before = [] := by
    intro before c k hprefix
    cases before with
    | nil => rfl
    | cons a before =>
      obtain ⟨_, hprefix⟩ := List.cons_prefix_cons.1 hprefix
      have hmem := hprefix.subset (List.mem_append_right before (List.mem_singleton_self _))
      simp at hmem
  refine ⟨?_, ?_, ?_⟩
  · intro before n k m hprefix
    rw [first before _ k hprefix]
    rfl
  · simp [firstRun]
  · intro before c k hprefix
    simp [first before c k hprefix]

/-- Up to the first run of the task there is one thread, and behind the calls of that run there are
two that run it again. -/
theorem threads_that_run_again_behind_offAndOn :
    ((quiet minutely).after firstRun).Exclusive ∧
    ∃ t u, t = (quiet minutely).after (firstRun ++ offAndOn ++ [.finish 0 none]) ∧ u ≠ 0 ∧
      ∀ v, t.sweeper.CanRunAgain v ↔ v = 0 ∨ v = u := by
  obtain ⟨_, horderly, hcalls⟩ :=
    @threads_that_run_again 60000 minutely (by decide) firstRun
  refine ⟨horderly orderly_firstRun firstRun (List.prefix_refl _), ?_⟩
  obtain ⟨_, _, htwo⟩ := hcalls 0 offAndOn none _ _ inTask_firstRun (by decide) rfl (by decide) rfl
  have hoff : ((quiet minutely).after firstRun).SwitchedOff offAndOn :=
    ⟨[.call (.worker 0) .disable], by decide, by decide⟩
  obtain ⟨u, hu, hboth⟩ := htwo (by decide) hoff
  refine ⟨_, u, ?_, hu, hboth⟩
  rw [after_snoc]
  simp only [after, List.foldl_append]

/-- **The task runs on two threads.** Switched on once from outside, its task switches it off and on
again, and returns: now there are two threads that can begin another run. -/
theorem task_runs_on_two_threads :
    ∃ t, t = (quiet minutely).after (firstRun ++ offAndOn ++ [.finish 0 none]) ∧
      t.sweeper.CanRunAgain 0 ∧ t.sweeper.CanRunAgain 1 ∧ t.sweeper.thread = some 1 :=
  ⟨_, rfl, canRunAgain_iff.2 (by decide), canRunAgain_iff.2 (by decide), by decide⟩

end Traffic
end Sweeper
end Sessions
