import Sessions.Proofs.Sweeper.Threads

/-!
# Sessions.Proofs.Sweeper.Callers

Callers who keep a sweeper to one thread. A new thread is started by a caller who has waited for the
one before it, as long as nobody calls from outside in the middle of another call from outside, the
task does not enable, and nobody calls behind a destruction.

* `Traffic.Opens` lists what the first section of a call comes to.
* `Traffic.Sole` is the invariant of orderly callers, and `Traffic.sole_after` has it for all their
  traffic.
-/

namespace Sessions
namespace Sweeper
namespace Traffic

variable {s : Sweeper} {t : Traffic} {a : Action} {c : Caller} {k : Call} {v w : WorkerId}
  {stage : Stage} {destroyed off : Prop}

/-! ## What calls do -/

/-- What the first section of a call comes to. -/
inductive Opens (s : Sweeper) (c : Caller) (k : Call) (p : Sweeper × Option Stage) : Prop where
  | nothing (hthread : p.1.thread = s.thread) (hrunning : p.1.running = s.running)
      (hstage : p.2 = none)
  /-- Enabling takes what an earlier call left behind. -/
  | stale (hk : k = .enable) (hoff : s.running = false) (hthread : p.1.thread = none)
      (hrunning : p.1.running = false) (hstage : p.2 = some ⟨s.thread, .start⟩)
  /-- The flag is lowered; the caller is the thread itself. -/
  | own (rest : Rest) (hrest : rest ≠ .start) (hdestroy : rest = .letGo → k = .destroy)
      (hon : s.running = true) (hrunning : p.1.running = false) (hself : s.thread = c.self)
      (hthread : p.1.thread = s.thread) (hstage : p.2 = some ⟨none, rest⟩)
  /-- The flag is lowered and the thread taken. -/
  | other (rest : Rest) (hrest : rest ≠ .start) (hdestroy : rest = .letGo → k = .destroy)
      (hon : s.running = true) (hrunning : p.1.running = false) (hself : s.thread ≠ c.self)
      (hthread : p.1.thread = none) (hstage : p.2 = some ⟨s.thread, rest⟩)
  /-- The sweeper that is destroyed is off. -/
  | ending (hk : k = .destroy) (hsame : p.1 = s) (hoff : s.running = false)
      (hstage : p.2 = some ⟨none, .letGo⟩)

theorem opens_halt (hon : s.running = true) (c : Caller) {rest : Rest} (hrest : rest ≠ .start)
    (hdestroy : rest = .letGo → k = .destroy) :
    Opens s c k ((s.halt c.self).2, some ⟨(s.halt c.self).1, rest⟩) := by
  unfold halt
  by_cases hself : s.thread = c.self
  · rw [if_pos hself]
    exact .own rest hrest hdestroy hon rfl hself rfl rfl
  · rw [if_neg hself]
    exact .other rest hrest hdestroy hon rfl hself rfl rfl

theorem opens_first (s : Sweeper) (c : Caller) (k : Call) : Opens s c k (s.first c k) := by
  cases k with
  | enable =>
    simp only [first]
    split
    · exact .nothing rfl rfl rfl
    · rename_i hoff
      have hoff' : s.running = false := by simpa using hoff
      exact .stale rfl hoff' rfl hoff' rfl
  | disable =>
    simp only [first]
    split
    · rename_i hon
      exact opens_halt hon c (by simp) (by simp)
    · exact .nothing rfl rfl rfl
  | setInterval interval =>
    simp only [first, setInterval]
    split
    · rename_i h
      split at h <;> cases h
      exact .nothing rfl rfl rfl
    · exact .nothing rfl rfl rfl
  | destroy =>
    simp only [first]
    split
    · rename_i hon
      exact opens_halt hon c (by simp) fun _ => rfl
    · rename_i hoff
      exact .ending rfl rfl (by simpa using hoff) rfl

/-- A thread is started behind the wait for the stale one, by a caller that enables. -/
theorem Opens.of_start {p : Sweeper × Option Stage} {taken : Option WorkerId}
    (h : Opens s c k p) (hstart : p.2 = some ⟨taken, .start⟩) :
    k = .enable ∧ s.running = false ∧ p.1.thread = none ∧ p.1.running = false ∧
      taken = s.thread := by
  cases h with
  | nothing _ _ hstage => cases hstage.symm.trans hstart
  | stale hk hoff hthread hrunning hstage =>
    cases hstage.symm.trans hstart
    exact ⟨hk, hoff, hthread, hrunning, rfl⟩
  | own rest hrest _ _ _ _ _ hstage =>
    cases hstage.symm.trans hstart
    exact absurd rfl hrest
  | other rest hrest _ _ _ _ _ hstage =>
    cases hstage.symm.trans hstart
    exact absurd rfl hrest
  | ending _ _ _ hstage => cases hstage.symm.trans hstart

theorem Opens.of_letGo {p : Sweeper × Option Stage} {taken : Option WorkerId}
    (h : Opens s c k p) (hletGo : p.2 = some ⟨taken, .letGo⟩) : k = .destroy := by
  cases h with
  | nothing _ _ hstage => cases hstage.symm.trans hletGo
  | stale _ _ _ _ hstage => cases hstage.symm.trans hletGo
  | own rest _ hdestroy _ _ _ _ hstage =>
    cases hstage.symm.trans hletGo
    exact hdestroy rfl
  | other rest _ hdestroy _ _ _ _ hstage =>
    cases hstage.symm.trans hletGo
    exact hdestroy rfl
  | ending hk => exact hk

theorem pending_put (t : Traffic) (c c' : Caller) (p : Sweeper × Option Stage) :
    (t.put c p).pending c' = if c' = c then p.2 else t.pending c' := rfl

theorem not_alive_of_joined {rest : Rest} (h : t.joined c ⟨some w, rest⟩ = true)
    (hself : c.self ≠ some w) : ¬t.sweeper.Alive w := by
  simp only [joined, Option.all_some, decide_eq_true_eq] at h
  exact fun halive => halive (h.resolve_left hself)

theorem act_resume (t : Traffic) (c : Caller) (available : Bool) :
    t.act (.resume c available) = t ∨ ∃ stage p, t.pending c = some stage ∧
      t.joined c stage = true ∧ t.sweeper.resume available stage.rest = some p ∧
      t.act (.resume c available) = t.put c p := by
  simp only [act]
  cases hpending : t.pending c with
  | none => exact Or.inl rfl
  | some stage =>
    by_cases hjoined : t.joined c stage
    · cases hresume : t.sweeper.resume available stage.rest with
      | none => exact Or.inl (by simp [hjoined, hresume])
      | some p => exact Or.inr ⟨stage, p, rfl, hjoined, hresume, by simp [hjoined, hresume]⟩
    · exact Or.inl (by simp [hjoined])

/-! ## Orderly callers -/

/-- Calls that do not get in each other's way. -/
structure Orderly (t : Traffic) (as : List Action) : Prop where
  /-- Nobody calls from outside in the middle of another call from outside. -/
  oneOutside : ∀ before n k m, before ++ [.call (.outside n) k] <+: as →
    (t.after before).pending (.outside m) = none
  taskNeverEnables : ∀ w, .call (.worker w) .enable ∉ as
  /-- Nobody calls behind a destruction. -/
  destroyIsLast : ∀ before c k, before ++ [.call c k] <+: as → ∀ c', .call c' .destroy ∉ before

/-- The invariant: a thread that has not ended is the one that the sweeper answers for, or somebody
from outside waits for it, unless the sweeper is destroyed; and who is about to start a thread waits
for the last one before. -/
structure Sole (destroyed : Prop) (t : Traffic) : Prop where
  lone : Lone t.sweeper
  held : ∀ w, t.sweeper.Alive w → t.sweeper.thread = some w ∨
    (∃ n rest, t.pending (.outside n) = some ⟨some w, rest⟩) ∨ destroyed
  starting : ∀ c taken, t.pending c = some ⟨taken, .start⟩ → (∃ n, c = .outside n) ∧
    t.sweeper.thread = none ∧ t.sweeper.running = false ∧ ∀ w, t.sweeper.Alive w → taken = some w
  lettingGo : ∀ c taken, t.pending c = some ⟨taken, .letGo⟩ → destroyed
  one : ∀ n m, (t.pending (.outside n)).isSome → (t.pending (.outside m)).isSome → n = m

namespace Sole

theorem moves (h : Sole destroyed t) (t' : Traffic) (hmoves : Moves w t.sweeper t'.sweeper)
    (hpending : t'.pending = t.pending) : Sole destroyed t' where
  lone v w hv hw := h.lone v w (hmoves.alive hv) (hmoves.alive hw)
  held v hv := by
    rw [hmoves.thread, hpending]
    exact h.held v (hmoves.alive hv)
  starting c taken hc := by
    rw [hpending] at hc
    obtain ⟨hout, hthread, hoff, htaken⟩ := h.starting c taken hc
    exact ⟨hout, hmoves.thread.trans hthread, hmoves.running.trans hoff,
      fun v hv => htaken v (hmoves.alive hv)⟩
  lettingGo := by
    rw [hpending]
    exact h.lettingGo
  one := by
    rw [hpending]
    exact h.one

/-- A section of a call that leaves the threads where they are. -/
theorem put (h : Sole destroyed t) {p : Sweeper × Option Stage}
    (hworkers : p.1.workers = t.sweeper.workers)
    (hheld : ∀ w, t.sweeper.Alive w → p.1.thread = some w ∨
      (∃ n rest, (t.put c p).pending (.outside n) = some ⟨some w, rest⟩) ∨ destroyed)
    (hstarting : ∀ taken, p.2 = some ⟨taken, .start⟩ → (∃ n, c = .outside n) ∧
      p.1.thread = none ∧ p.1.running = false ∧ ∀ w, t.sweeper.Alive w → taken = some w)
    (hothers : ∀ c' taken, c' ≠ c → t.pending c' = some ⟨taken, .start⟩ →
      p.1.thread = none ∧ p.1.running = false)
    (hlettingGo : ∀ taken, p.2 = some ⟨taken, .letGo⟩ → destroyed)
    (hone : ∀ n, c = .outside n → p.2.isSome → ∀ m, (t.pending (.outside m)).isSome → m = n) :
    Sole destroyed (t.put c p) where
  lone v w hv hw := h.lone v w ((alive_of_workers hworkers).1 hv) ((alive_of_workers hworkers).1 hw)
  held w hw := hheld w ((alive_of_workers hworkers).1 hw)
  starting c' taken hc' := by
    rw [pending_put] at hc'
    by_cases hc : c' = c
    · rw [if_pos hc] at hc'
      obtain ⟨hout, hthread, hoff, htaken⟩ := hstarting taken hc'
      exact ⟨hc ▸ hout, hthread, hoff, fun w hw => htaken w ((alive_of_workers hworkers).1 hw)⟩
    · rw [if_neg hc] at hc'
      obtain ⟨hout, _, _, htaken⟩ := h.starting c' taken hc'
      obtain ⟨hthread, hoff⟩ := hothers c' taken hc hc'
      exact ⟨hout, hthread, hoff, fun w hw => htaken w ((alive_of_workers hworkers).1 hw)⟩
  lettingGo c' taken hc' := by
    rw [pending_put] at hc'
    split at hc'
    · exact hlettingGo taken hc'
    · exact h.lettingGo c' taken hc'
  one n m hn hm := by
    rw [pending_put] at hn hm
    by_cases hcn : Caller.outside n = c
    · rw [if_pos hcn] at hn
      by_cases hcm : Caller.outside m = c
      · exact Caller.outside.inj (hcn.trans hcm.symm)
      · rw [if_neg hcm] at hm
        exact (hone n hcn.symm hn m hm).symm
    · rw [if_neg hcn] at hn
      by_cases hcm : Caller.outside m = c
      · rw [if_pos hcm] at hm
        exact hone m hcm.symm hm n hn
      · rw [if_neg hcm] at hm
        exact h.one n m hn hm

theorem mono (h : Sole destroyed t) {destroyed' : Prop} (himp : destroyed → destroyed') :
    Sole destroyed' t where
  lone := h.lone
  held w hw := (h.held w hw).imp_right (Or.imp_right himp)
  starting := h.starting
  lettingGo c taken hc := himp (h.lettingGo c taken hc)
  one := h.one

/-- A call from outside, while nobody else calls from there and nothing is destroyed: the thread is
the one that the sweeper answers for, and if it is taken, then by this caller. -/
theorem call_outside {n : Nat} (h : Sole False t) (hquiet : ∀ m, t.pending (.outside m) = none) :
    Sole (k = .destroy) (t.put (.outside n) (t.sweeper.first (.outside n) k)) := by
  have hthread : ∀ w, t.sweeper.Alive w → t.sweeper.thread = some w := by
    intro w hw
    rcases h.held w hw with hthread | ⟨m, rest, hm⟩ | hfalse
    · exact hthread
    · rw [hquiet m] at hm
      cases hm
    · cases hfalse
  have hnobody : ∀ c' taken, t.pending c' ≠ some ⟨taken, .start⟩ := by
    intro c' taken hc'
    obtain ⟨⟨m, rfl⟩, _⟩ := h.starting c' taken hc'
    rw [hquiet m] at hc'
    cases hc'
  refine (h.mono False.elim).put (workers_first _ _ _) ?_ ?_
    (fun c' taken _ hc' => absurd hc' (hnobody c' taken)) ?_ ?_
  · intro w hw
    have hw := hthread w hw
    cases opens_first t.sweeper (.outside n) k with
    | nothing hsame => exact Or.inl (hsame.trans hw)
    | stale _ _ _ _ hstage =>
      exact Or.inr (Or.inl ⟨n, .start, by rw [pending_put, if_pos rfl, hstage, hw]⟩)
    | own _ _ _ _ _ hself => rw [hw] at hself; cases hself
    | other rest _ _ _ _ _ _ hstage =>
      exact Or.inr (Or.inl ⟨n, rest, by rw [pending_put, if_pos rfl, hstage, hw]⟩)
    | ending hk => exact Or.inr (Or.inr hk)
  · intro taken htaken
    obtain ⟨_, _, hnone, hoff, rfl⟩ := (opens_first _ _ _).of_start htaken
    exact ⟨⟨n, rfl⟩, hnone, hoff, hthread⟩
  · exact fun taken htaken => (opens_first _ _ _).of_letGo htaken
  · intro m _ _ m' hm'
    rw [hquiet m'] at hm'
    cases hm'

/-- A call of the task, other than to enable: the thread that it runs on is not taken. -/
theorem call_worker (h : Sole False t) (hw : t.sweeper.Alive w) (hk : k ≠ .enable) :
    Sole (k = .destroy) (t.put (.worker w) (t.sweeper.first (.worker w) k)) := by
  refine (h.mono False.elim).put (workers_first _ _ _) ?_ ?_ ?_
    (fun taken htaken => (opens_first _ _ _).of_letGo htaken) (fun n hn => by cases hn)
  · intro v hv
    obtain rfl := h.lone v w hv hw
    rcases h.held v hv with hthread | ⟨n, rest, hn⟩ | hfalse
    · cases opens_first t.sweeper (.worker v) k with
      | nothing hsame => exact Or.inl (hsame.trans hthread)
      | stale henable => exact absurd henable hk
      | own _ _ _ _ _ _ hsame => exact Or.inl (hsame.trans hthread)
      | other _ _ _ _ _ hself => exact absurd hthread hself
      | ending hdestroy => exact Or.inr (Or.inr hdestroy)
    · exact Or.inr (Or.inl ⟨n, rest, by rw [pending_put, if_neg (by simp), hn]⟩)
    · cases hfalse
  · intro taken htaken
    exact absurd ((opens_first _ _ _).of_start htaken).1 hk
  · intro c' taken _ hc'
    obtain ⟨_, hnone, hoff, _⟩ := h.starting c' taken hc'
    cases opens_first t.sweeper (.worker w) k with
    | nothing hthread hrunning => exact ⟨hthread.trans hnone, hrunning.trans hoff⟩
    | stale henable => exact absurd henable hk
    | own _ _ _ hon => rw [hoff] at hon; cases hon
    | other _ _ _ hon => rw [hoff] at hon; cases hon
    | ending _ hsame => rw [hsame]; exact ⟨hnone, hoff⟩

theorem resume_leave {taken : Option WorkerId} (h : Sole destroyed t)
    (hpending : t.pending c = some ⟨taken, .leave⟩)
    (hjoined : t.joined c ⟨taken, .leave⟩ = true) : Sole destroyed (t.put c (t.sweeper, none)) := by
  refine h.put rfl ?_ (by simp) ?_ (by simp) (by simp)
  · intro w hw
    rcases h.held w hw with hthread | ⟨n, rest, hn⟩ | hdestroyed
    · exact Or.inl hthread
    · by_cases hc : Caller.outside n = c
      · rw [← hc, hn, Option.some.injEq, Stage.mk.injEq] at hpending
        rw [← hpending.1, ← hc] at hjoined
        exact absurd hw (not_alive_of_joined hjoined (by simp [Caller.self]))
      · exact Or.inr (Or.inl ⟨n, rest, by rw [pending_put, if_neg hc, hn]⟩)
    · exact Or.inr (Or.inr hdestroyed)
  · intro c' taken' _ hc'
    obtain ⟨_, hnone, hoff, _⟩ := h.starting c' taken' hc'
    exact ⟨hnone, hoff⟩

theorem resume_letGo {taken : Option WorkerId} (h : Sole destroyed t)
    (hpending : t.pending c = some ⟨taken, .letGo⟩) :
    Sole destroyed (t.put c (t.sweeper.takeStale.2, some ⟨t.sweeper.takeStale.1, .leave⟩)) := by
  have hdestroyed := h.lettingGo c taken hpending
  refine h.put rfl (fun _ _ => Or.inr (Or.inr hdestroyed)) (by simp) ?_ (by simp) ?_
  · intro c' taken' _ hc'
    exact ⟨rfl, (h.starting c' taken' hc').2.2.1⟩
  · rintro n rfl _ m hm
    exact h.one m n hm (by simp [hpending])

/-- Nobody is left where a thread is about to be started. -/
theorem not_alive_of_start {taken : Option WorkerId} (h : Sole destroyed t)
    (hpending : t.pending c = some ⟨taken, .start⟩)
    (hjoined : t.joined c ⟨taken, .start⟩ = true) (w : WorkerId) : ¬t.sweeper.Alive w := by
  obtain ⟨⟨n, rfl⟩, _, _, htaken⟩ := h.starting c taken hpending
  intro halive
  rw [htaken w halive] at hjoined
  exact not_alive_of_joined hjoined (by simp [Caller.self]) halive

theorem resume_start_off {taken : Option WorkerId} (h : Sole destroyed t)
    (hpending : t.pending c = some ⟨taken, .start⟩)
    (hjoined : t.joined c ⟨taken, .start⟩ = true) : Sole destroyed (t.put c (t.sweeper, none)) := by
  refine h.put rfl ?_ (by simp) ?_ (by simp) (by simp)
  · exact fun w hw => absurd hw (h.not_alive_of_start hpending hjoined w)
  · intro c' taken' _ hc'
    obtain ⟨_, hnone, hoff, _⟩ := h.starting c' taken' hc'
    exact ⟨hnone, hoff⟩

/-- The start of a thread: there is none beside it. -/
theorem begins {taken : Option WorkerId} (h : Sole destroyed t)
    (hpending : t.pending c = some ⟨taken, .start⟩)
    (hjoined : t.joined c ⟨taken, .start⟩ = true) :
    Sole destroyed (t.put c (t.sweeper.begin.1, none)) := by
  obtain ⟨⟨n, rfl⟩, _, hoff, _⟩ := h.starting c taken hpending
  have hnew : ∀ w, t.sweeper.begin.1.Alive w → w = t.sweeper.workers.length := fun w hw =>
    ((alive_begin hoff).1 hw).resolve_right (h.not_alive_of_start hpending hjoined w)
  have hothers : ∀ c' stage, (t.put (.outside n) (t.sweeper.begin.1, none)).pending c' = some stage →
      c' ≠ .outside n ∧ t.pending c' = some stage := by
    intro c' stage hc'
    rw [pending_put] at hc'
    split at hc'
    · cases hc'
    · rename_i hne
      exact ⟨hne, hc'⟩
  refine ⟨fun v w hv hw => (hnew v hv).trans (hnew w hw).symm, ?_, ?_, ?_, ?_⟩
  · intro w hw
    refine Or.inl ?_
    rw [hnew w hw, Traffic.put, begin_of_off hoff]
  · intro c' taken' hc'
    obtain ⟨hne, hc'⟩ := hothers c' _ hc'
    obtain ⟨⟨m, rfl⟩, _⟩ := h.starting c' taken' hc'
    exact absurd (congrArg Caller.outside (h.one m n (by simp [hc']) (by simp [hpending]))) hne
  · exact fun c' taken' hc' => h.lettingGo c' taken' (hothers c' _ hc').2
  · intro m m' hm hm'
    obtain ⟨stage, hstage⟩ := Option.isSome_iff_exists.1 hm
    obtain ⟨stage', hstage'⟩ := Option.isSome_iff_exists.1 hm'
    exact h.one m m' (by simp [(hothers _ _ hstage).2]) (by simp [(hothers _ _ hstage').2])

theorem resume (h : Sole destroyed t) (c : Caller) (available : Bool) :
    Sole destroyed (t.act (.resume c available)) := by
  rcases act_resume t c available with hsame | ⟨⟨taken, rest⟩, p, hpending, hjoined, hp, hact⟩
  · rwa [hsame]
  · rw [hact]
    cases rest with
    | start =>
      obtain ⟨s', hs', rfl⟩ := Option.map_eq_some_iff.1 hp
      rcases second_cases hs' with rfl | ⟨_, _, rfl⟩
      · exact h.resume_start_off hpending hjoined
      · exact h.begins hpending hjoined
    | letGo =>
      cases hp
      exact h.resume_letGo hpending
    | leave =>
      cases hp
      exact h.resume_leave hpending hjoined

/-- Every action of orderly callers, and every move of a thread, preserves the invariant. -/
theorem act (h : Sole destroyed t)
    (houtside : ∀ n k, a = .call (.outside n) k → ∀ m, t.pending (.outside m) = none)
    (htask : ∀ w, a ≠ .call (.worker w) .enable) (hlast : ∀ c k, a = .call c k → ¬destroyed) :
    Sole (destroyed ∨ ∃ c, a = .call c .destroy) (t.act a) := by
  cases a with
  | call c k =>
    simp only [Traffic.act]
    split
    · rename_i hmay
      have hfresh : Sole False t := h.mono (hlast c k rfl)
      have hdestroyed : k = .destroy → destroyed ∨ ∃ c', Action.call c k = .call c' .destroy := by
        rintro rfl
        exact Or.inr ⟨c, rfl⟩
      cases c with
      | outside n => exact (hfresh.call_outside (houtside n k rfl)).mono hdestroyed
      | worker w =>
        have hw : t.sweeper.phase w = .sweeping := by
          simp only [mayCall, decide_eq_true_eq] at hmay
          exact hmay.2
        have hk : k ≠ .enable := fun hk => htask w (by rw [hk])
        exact (hfresh.call_worker (by simp [Alive, hw]) hk).mono hdestroyed
    · exact h.mono Or.inl
  | resume c available => exact (h.resume c available).mono Or.inl
  | enter w => exact (h.moves (t.act (.enter w)) (moves_enter t.sweeper w) rfl).mono Or.inl
  | wake w => exact (h.moves (t.act (.wake w)) (moves_wake t.sweeper w) rfl).mono Or.inl
  | elapse w => exact (h.moves (t.act (.elapse w)) (moves_elapse t.sweeper w) rfl).mono Or.inl
  | finish w failure =>
    simp only [Traffic.act]
    split
    · have hmoves := moves_finish t.sweeper w failure
      exact (h.moves { t with sweeper := (t.sweeper.finish w failure).1 } hmoves rfl).mono Or.inl
    · exact h.mono Or.inl

end Sole

/-- The sweeper has not started a thread. -/
def Fresh (s : Sweeper) : Prop := s.workers = []

theorem Fresh.not_alive (h : Fresh s) (w : WorkerId) : ¬s.Alive w := by
  intro halive
  have hlt := halive.lt
  rw [h] at hlt
  exact absurd hlt (by simp)

theorem sole_after {as : List Action} (hfresh : Fresh s) (horderly : Orderly (quiet s) as)
    {before : List Action} (hbefore : before <+: as) :
    Sole (∃ c, .call c .destroy ∈ before) ((quiet s).after before) := by
  induction before using List.reverseRecOn with
  | nil =>
    refine ⟨?_, fun v hv => absurd hv (hfresh.not_alive v), ?_, ?_, ?_⟩
    · exact fun v _ hv => absurd hv (hfresh.not_alive v)
    · intro c taken hc
      cases hc
    · intro c taken hc
      cases hc
    · intro n m hn
      cases hn
  | append_singleton before a ih =>
    have hsole := ih ((List.prefix_append before [a]).trans hbefore)
    rw [after_snoc]
    refine (hsole.act ?_ ?_ ?_).mono ?_
    · rintro n k rfl m
      exact horderly.oneOutside before n k m hbefore
    · rintro w rfl
      exact horderly.taskNeverEnables w (hbefore.subset (by simp))
    · rintro c k rfl ⟨c', hc'⟩
      exact horderly.destroyIsLast before c k hbefore c' hc'
    · rintro (⟨c, hc⟩ | ⟨c, rfl⟩)
      · exact ⟨c, List.mem_append_left _ hc⟩
      · exact ⟨c, by simp⟩

end Traffic
end Sweeper
end Sessions
