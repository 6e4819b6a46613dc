import Mathlib.Data.List.GetD
import Sessions.Proofs.Sweeper.Task

/-!
# Sessions.Proofs.Sweeper.Accounting

The runs of the task, as they begin and end in the traffic of a sweeper, and the counts that the sweeper
keeps of them. Every run that ends is counted once, as one that failed or as one that did not; while a
sweeper is off no run begins; and how long the interval is makes no difference to either.

* `Traffic.begins` and `Traffic.outcome?` tell a run that begins and a run that ends.
* `Traffic.Tallied` is what traffic does to the counts: `Traffic.tallied_act` has it for one action,
  `Traffic.tallied_after` for all of them.
* `Traffic.Resting`: a sweeper that is off, with nobody about to switch it on.
* `Traffic.runs_are_accounted_for` has it all together.
-/

namespace Sessions
namespace Sweeper

variable {s s' : Sweeper} {v w : WorkerId} {p : Phase}

/-! ## Into the task and out of it -/

/-- How many threads are inside the task. -/
def inTask (s : Sweeper) : Nat := s.workers.count .sweeping

theorem inTask_moveTo (h : s.Alive w) (p : Phase) :
    (s.moveTo w p).inTask + (if s.phase w = .sweeping then 1 else 0) =
      s.inTask + if p = .sweeping then 1 else 0 := by
  have hlt := h.lt
  have hphase : s.workers[w] = s.phase w := (List.getD_eq_getElem _ _ hlt).symm
  have hpos : s.phase w = .sweeping → 0 < s.workers.count .sweeping := fun hsweeping =>
    List.count_pos_iff.2 (hsweeping ▸ hphase ▸ List.getElem_mem hlt)
  unfold inTask moveTo
  dsimp only
  rw [List.count_set hlt, hphase]
  simp only [beq_iff_eq]
  split
  · rename_i hsweeping
    have := hpos hsweeping
    omega
  · rfl

/-- The thread stays outside the task: it does not move, or it comes to wait for the interval as it is set
now, or it ends. -/
def Idles (w : WorkerId) (s s' : Sweeper) : Prop :=
  s' = s ∨ s.Alive w ∧ s.phase w ≠ .sweeping ∧
    ∃ p, (p = .waiting s.generation ∨ p = .ended) ∧ s' = s.moveTo w p

theorem idles_enter (s : Sweeper) (w : WorkerId) : Idles w s (s.enter w) := by
  unfold enter
  split
  · rename_i hw
    refine .inr ⟨by simp [Alive, hw], by simp [hw], _, ?_, rfl⟩
    split
    · exact .inl rfl
    · exact .inr rfl
  · exact .inl rfl

theorem idles_wake (s : Sweeper) (w : WorkerId) : Idles w s (s.wake w) := by
  unfold wake
  split
  · rename_i g hw
    have halive : s.Alive w := by simp [Alive, hw]
    split
    · exact .inr ⟨halive, by simp [hw], _, .inr rfl, rfl⟩
    · split
      · exact .inr ⟨halive, by simp [hw], _, .inl rfl, rfl⟩
      · exact .inl rfl
  · exact .inl rfl

/-- A thread runs the task where it waited for the interval as it is set now and the sweeper is on. -/
theorem elapse_cases (s : Sweeper) (w : WorkerId) :
    Idles w s (s.elapse w) ∨
      s.running = true ∧ s.phase w = .waiting s.generation ∧ s.elapse w = s.moveTo w .sweeping := by
  unfold elapse
  split
  · rename_i g hw
    split
    · rename_i hon
      exact .inr ⟨hon.1, by rw [hw, hon.2], rfl⟩
    · exact .inl (idles_wake s w)
  · exact .inl (.inl rfl)

/-- A run that ended, on the count that it belongs to. -/
def record (s : Sweeper) : Option Text → Sweeper
  | none => { s with runs := s.runs + 1 }
  | some _ => { s with failures := s.failures + 1 }

theorem workers_record (s : Sweeper) (o : Option Text) : (s.record o).workers = s.workers := by
  cases o <;> rfl

theorem finish_cases (s : Sweeper) (w : WorkerId) (o : Option Text) :
    s.phase w ≠ .sweeping ∧ (s.finish w o).1 = s ∨
      s.phase w = .sweeping ∧ (s.finish w o).1 = (s.record o).moveTo w .entering := by
  by_cases hw : s.phase w = .sweeping
  · refine .inr ⟨hw, ?_⟩
    unfold finish
    rw [hw]
    cases o <;> rfl
  · refine .inl ⟨hw, ?_⟩
    unfold finish
    split
    · contradiction
    · contradiction
    · rfl

theorem Idles.phase (h : Idles w s s') : s'.phase w = .sweeping ↔ s.phase w = .sweeping := by
  rcases h with rfl | ⟨halive, hw, p, hp, rfl⟩
  · exact Iff.rfl
  · have hout : p ≠ .sweeping := by rcases hp with rfl | rfl <;> simp
    rw [phase_moveTo halive]
    exact iff_of_false hout hw

/-- The counts are as they were, and the interval was not set or was set anew. -/
structure Keeps (s s' : Sweeper) : Prop where
  runs : s'.runs = s.runs
  failures : s'.failures = s.failures
  generation : s.generation ≤ s'.generation

theorem Keeps.refl (s : Sweeper) : Keeps s s := ⟨rfl, rfl, Nat.le_refl _⟩

theorem Idles.keeps (h : Idles w s s') : Keeps s s' ∧ s'.inTask = s.inTask := by
  rcases h with rfl | ⟨halive, hw, p, hp, rfl⟩
  · exact ⟨.refl s', rfl⟩
  · have hcount := inTask_moveTo halive p
    have hout : p ≠ .sweeping := by rcases hp with rfl | rfl <;> simp
    rw [if_neg hw, if_neg hout] at hcount
    exact ⟨⟨rfl, rfl, Nat.le_refl _⟩, hcount⟩

/-! ## Sections -/

theorem running_halt (s : Sweeper) (caller : Option WorkerId) : (s.halt caller).2.running = false := by
  unfold halt
  split <;> rfl

theorem keeps_halt (s : Sweeper) (caller : Option WorkerId) : Keeps s (s.halt caller).2 := by
  unfold halt
  split <;> exact ⟨rfl, rfl, Nat.le_refl _⟩

theorem first_setInterval (s : Sweeper) (c : Caller) (i : Millis) :
    s.first c (.setInterval i) =
      if i ≤ 0 then (s, none)
      else ({ s with interval := i, generation := s.generation + 1 }, none) := by
  simp only [first, setInterval]
  split <;> rename_i h
  · split at h <;> cases h
    rename_i hi
    rw [if_neg hi]
  · split at h <;> cases h
    rename_i hi
    rw [if_pos hi]

theorem keeps_first (s : Sweeper) (c : Caller) (k : Call) : Keeps s (s.first c k).1 := by
  cases k with
  | enable =>
    simp only [first]
    split <;> exact ⟨rfl, rfl, Nat.le_refl _⟩
  | disable =>
    simp only [first]
    split
    · exact keeps_halt s c.self
    · exact .refl s
  | setInterval interval =>
    rw [first_setInterval]
    split
    · exact .refl s
    · exact ⟨rfl, rfl, Nat.le_succ _⟩
  | destroy =>
    simp only [first]
    split
    · exact keeps_halt s c.self
    · exact .refl s

theorem keeps_begin (hoff : s.running = false) :
    Keeps s s.begin.1 ∧ s.begin.1.inTask = s.inTask := by
  rw [begin_of_off hoff]
  refine ⟨⟨rfl, rfl, Nat.le_refl _⟩, ?_⟩
  simp [inTask]

theorem keeps_resume {available : Bool} {rest : Rest} {p : Sweeper × Option Stage}
    (h : s.resume available rest = some p) : Keeps s p.1 ∧ p.1.inTask = s.inTask := by
  cases rest with
  | start =>
    obtain ⟨s', hs', rfl⟩ := Option.map_eq_some_iff.1 h
    rcases second_cases hs' with rfl | ⟨hoff, _, rfl⟩
    · exact ⟨.refl s', rfl⟩
    · exact keeps_begin hoff
  | letGo =>
    cases h
    exact ⟨⟨rfl, rfl, Nat.le_refl _⟩, rfl⟩
  | leave =>
    cases h
    exact ⟨.refl s, rfl⟩

/-! ## The interval that a thread waits for -/

/-- No thread waits for an interval that is yet to be set. -/
def Dated (s : Sweeper) : Prop := ∀ w g, s.phase w = .waiting g → g ≤ s.generation

theorem Dated.of_workers (h : Dated s) (hworkers : s'.workers = s.workers)
    (hle : s.generation ≤ s'.generation) : Dated s' := fun w g hw =>
  Nat.le_trans (h w g ((phase_of_workers hworkers w).symm.trans hw)) hle

theorem Dated.moveTo (h : Dated s) (halive : s.Alive w)
    (hp : ∀ g, p = .waiting g → g = s.generation) : Dated (s.moveTo w p) := by
  intro v g hv
  by_cases hvw : v = w
  · rw [hvw, phase_moveTo halive] at hv
    exact Nat.le_of_eq (hp g hv)
  · rw [phase_moveTo_of_ne hvw] at hv
    exact h v g hv

theorem Dated.idles (h : Dated s) (hidles : Idles w s s') : Dated s' := by
  rcases hidles with rfl | ⟨halive, _, p, hp, rfl⟩
  · exact h
  · refine h.moveTo halive fun g hg => ?_
    rcases hp with rfl | rfl
    · cases hg
      rfl
    · cases hg

theorem Dated.begin (h : Dated s) (hoff : s.running = false) : Dated s.begin.1 := by
  intro w g hw
  rw [phase_begin hoff] at hw
  split at hw
  · cases hw
  · exact Nat.le_trans (h w g hw) (keeps_begin hoff).1.generation

namespace Traffic

variable {t t' t'' : Traffic} {a : Action} {as bs : List Action} {c : Caller} {k : Call}

/-- A thread that was outside the task comes to be inside. -/
def begins (t : Traffic) : Action → Bool
  | .elapse w => t.sweeper.phase w ≠ .sweeping ∧ (t.sweeper.elapse w).phase w = .sweeping
  | _ => false

/-- How the run came out, where a thread that was inside the task comes to be outside. -/
def outcome? (t : Traffic) : Action → Option (Option Text)
  | .finish w o =>
    if t.sweeper.phase w = .sweeping ∧ (t.act (.finish w o)).sweeper.phase w ≠ .sweeping then some o
    else none
  | _ => none

/-- How many runs begin. -/
def begun (t : Traffic) : List Action → Nat
  | [] => 0
  | a :: as => (t.begins a).toNat + (t.act a).begun as

/-- How the runs come out that end, in their order. -/
def outcomes (t : Traffic) : List Action → List (Option Text)
  | [] => []
  | a :: as => (t.outcome? a).toList ++ (t.act a).outcomes as

/-- What traffic does to the counts, where so many runs begin and these come out. -/
structure Tallied (t t' : Traffic) (begun : Nat) (os : List (Option Text)) : Prop where
  runs : t'.sweeper.runs = t.sweeper.runs + os.countP Option.isNone
  failures : t'.sweeper.failures = t.sweeper.failures + os.countP Option.isSome
  inTask : t'.sweeper.inTask + os.length = t.sweeper.inTask + begun

namespace Tallied

variable {m n : Nat} {os os' : List (Option Text)}

theorem same (h : Keeps t.sweeper t'.sweeper ∧ t'.sweeper.inTask = t.sweeper.inTask) :
    Tallied t t' 0 [] :=
  ⟨h.1.runs, h.1.failures, h.2⟩

theorem refl (t : Traffic) : Tallied t t 0 [] := .same ⟨.refl t.sweeper, rfl⟩

theorem trans (h : Tallied t t' m os) (h' : Tallied t' t'' n os') :
    Tallied t t'' (m + n) (os ++ os') where
  runs := by rw [h'.runs, h.runs, List.countP_append, Nat.add_assoc]
  failures := by rw [h'.failures, h.failures, List.countP_append, Nat.add_assoc]
  inTask := by
    have hfirst := h.inTask
    have hsecond := h'.inTask
    rw [List.length_append]
    omega

end Tallied

theorem tallied_elapse (t : Traffic) (w : WorkerId) :
    Tallied t (t.act (.elapse w)) (t.begins (.elapse w)).toNat [] := by
  rcases elapse_cases t.sweeper w with hidles | ⟨_, hw, hmove⟩
  · have hbegins : t.begins (.elapse w) = false :=
      decide_eq_false fun h => h.1 (hidles.phase.1 h.2)
    rw [hbegins]
    exact .same hidles.keeps
  · have halive : t.sweeper.Alive w := by simp [Alive, hw]
    have hbegins : t.begins (.elapse w) = true :=
      decide_eq_true ⟨by simp [hw], by rw [hmove, phase_moveTo halive]⟩
    have hcount := inTask_moveTo halive .sweeping
    rw [hw, if_neg (by simp), if_pos rfl] at hcount
    simp only [act, hmove, hbegins]
    exact ⟨rfl, rfl, hcount⟩

/-- Where the task comes back and no call of it is in progress, a run ends; otherwise nothing happens. -/
theorem finish_eq (t : Traffic) (w : WorkerId) (o : Option Text) :
    (t.outcome? (.finish w o) = none ∧ (t.act (.finish w o)).sweeper = t.sweeper) ∨
      t.outcome? (.finish w o) = some o ∧ (t.sweeper.record o).phase w = .sweeping ∧
        (t.act (.finish w o)).sweeper = (t.sweeper.record o).moveTo w .entering := by
  have hnothing : (t.act (.finish w o)).sweeper = t.sweeper →
      t.outcome? (.finish w o) = none ∧ (t.act (.finish w o)).sweeper = t.sweeper := fun hsame =>
    ⟨if_neg fun h => h.2 (by rw [hsame]; exact h.1), hsame⟩
  by_cases hpending : t.pending (.worker w) = none
  · have hact : (t.act (.finish w o)).sweeper = (t.sweeper.finish w o).1 := by
      simp only [act, hpending, if_true]
    rcases finish_cases t.sweeper w o with ⟨_, hsame⟩ | ⟨hw, hmove⟩
    · exact .inl (hnothing (hact.trans hsame))
    · have hrecord : (t.sweeper.record o).phase w = .sweeping := by
        rw [phase_of_workers (workers_record t.sweeper o), hw]
      have halive : (t.sweeper.record o).Alive w := by simp [Alive, hrecord]
      refine .inr ⟨if_pos ⟨hw, ?_⟩, hrecord, hact.trans hmove⟩
      rw [hact, hmove, phase_moveTo halive]
      simp
  · exact .inl (hnothing (by rw [act, if_neg hpending]))

theorem tallied_finish (t : Traffic) (w : WorkerId) (o : Option Text) :
    Tallied t (t.act (.finish w o)) 0 (t.outcome? (.finish w o)).toList := by
  rcases finish_eq t w o with ⟨hnone, hsame⟩ | ⟨hsome, hrecord, hmove⟩
  · rw [hnone]
    exact .same (by rw [hsame]; exact ⟨.refl _, rfl⟩)
  · -- the run is put on its count first, and then its thread leaves the task
    have halive : (t.sweeper.record o).Alive w := by simp [Alive, hrecord]
    have hcount := inTask_moveTo halive .entering
    rw [hrecord, if_pos rfl, if_neg (by simp)] at hcount
    rw [hsome]
    refine ⟨?_, ?_, ?_⟩
    · rw [hmove]
      cases o <;> rfl
    · rw [hmove]
      cases o <;> rfl
    · rw [hmove]
      exact hcount.trans (by rw [inTask, workers_record]; rfl)

theorem tallied_act (t : Traffic) (a : Action) :
    Tallied t (t.act a) (t.begins a).toNat (t.outcome? a).toList := by
  cases a with
  | call c k =>
    simp only [act]
    split
    · exact .same ⟨keeps_first _ _ _, by rw [inTask, put, workers_first]; rfl⟩
    · exact .refl t
  | resume c available =>
    rcases act_resume t c available with hsame | ⟨stage, p, _, _, hp, hact⟩
    · rw [hsame]
      exact .refl t
    · rw [hact]
      exact .same (keeps_resume hp)
  | enter w => exact .same (idles_enter t.sweeper w).keeps
  | wake w => exact .same (idles_wake t.sweeper w).keeps
  | elapse w => exact tallied_elapse t w
  | finish w o => exact tallied_finish t w o

theorem tallied_after (t : Traffic) (as : List Action) :
    Tallied t (t.after as) (t.begun as) (t.outcomes as) := by
  induction as generalizing t with
  | nil => exact .refl t
  | cons a as ih => exact (tallied_act t a).trans (ih (t.act a))

/-- A run that ends leaves its thread at the top of the loop, however it came out, and the thread goes on
as long as the sweeper is on. -/
theorem goes_on_of_outcome {o : Option Text} (h : t.outcome? (.finish w o) = some o) :
    (t.act (.finish w o)).sweeper.phase w = .entering ∧
      ((t.act (.finish w o)).sweeper.CanRunAgain w ↔ t.sweeper.running = true) := by
  rcases finish_eq t w o with ⟨hnone, _⟩ | ⟨_, hrecord, hmove⟩
  · rw [hnone] at h
    cases h
  · have hphase : (t.act (.finish w o)).sweeper.phase w = .entering := by
      rw [hmove, phase_moveTo (by simp [Alive, hrecord])]
    have hrunning : (t.act (.finish w o)).sweeper.running = t.sweeper.running := by
      rw [hmove]
      cases o <;> rfl
    rw [canRunAgain_iff, Alive, hphase, hrunning]
    simp

/-! ## A sweeper that is off -/

/-- The sweeper is off, and nobody is about to switch it on. -/
structure Resting (t : Traffic) : Prop where
  off : t.sweeper.running = false
  nobody : ∀ c taken, t.pending c ≠ some ⟨taken, .start⟩

theorem begins_eq_false (hoff : t.sweeper.running = false) (a : Action) : t.begins a = false := by
  cases a with
  | elapse w =>
    refine decide_eq_false fun h => ?_
    have hon := (running_and_alive_of_elapse h.1 h.2).1
    rw [hoff] at hon
    cases hon
  | _ => rfl

theorem resting_put {p : Sweeper × Option Stage}
    (hnobody : ∀ c' taken, t.pending c' ≠ some ⟨taken, .start⟩) (hoff : p.1.running = false)
    (hstage : ∀ taken, p.2 ≠ some ⟨taken, .start⟩) : (t.put c p).Resting where
  off := hoff
  nobody c' taken := by
    rw [pending_put]
    split
    · exact hstage taken
    · exact hnobody c' taken

theorem Opens.off {p : Sweeper × Option Stage} (h : Opens s c k p) (hoff : s.running = false) :
    p.1.running = false := by
  cases h with
  | nothing _ hrunning => exact hrunning.trans hoff
  | stale _ _ _ hrunning => exact hrunning
  | own _ _ _ _ hrunning => exact hrunning
  | other _ _ _ _ hrunning => exact hrunning
  | ending _ hsame => rw [hsame, hoff]

theorem Resting.act (h : t.Resting) (ha : ∀ c, a ≠ .call c .enable) : (t.act a).Resting := by
  have hmoves : ∀ {w} {t' : Traffic}, Moves w t.sweeper t'.sweeper → t'.pending = t.pending →
      t'.Resting := fun hmoves hpending =>
    ⟨hmoves.running.trans h.off, fun c taken => by rw [hpending]; exact h.nobody c taken⟩
  cases a with
  | call c k =>
    simp only [Traffic.act]
    split
    · have hopens := opens_first t.sweeper c k
      exact resting_put h.nobody (hopens.off h.off) fun taken htaken =>
        ha c (by rw [(hopens.of_start htaken).1])
    · exact h
  | resume c available =>
    rcases act_resume t c available with hsame | ⟨⟨taken, rest⟩, p, hpending, _, hp, hact⟩
    · rwa [hsame]
    · rw [hact]
      -- of the stages behind a call only the one that starts a thread raises the flag
      cases rest with
      | start => exact absurd hpending (h.nobody c taken)
      | letGo =>
        cases hp
        exact resting_put h.nobody h.off (by simp)
      | leave =>
        cases hp
        exact resting_put h.nobody h.off (by simp)
  | enter w => exact hmoves (moves_enter t.sweeper w) rfl
  | wake w => exact hmoves (moves_wake t.sweeper w) rfl
  | elapse w => exact hmoves (moves_elapse t.sweeper w) rfl
  | finish w o =>
    simp only [Traffic.act]
    split
    · exact hmoves (moves_finish t.sweeper w o) rfl
    · exact h

theorem begun_eq_zero (h : t.Resting) (has : ∀ c, .call c .enable ∉ as) : t.begun as = 0 := by
  induction as generalizing t with
  | nil => rfl
  | cons a as ih =>
    have hact := h.act fun c hc => has c (hc ▸ List.mem_cons_self)
    rw [begun, begins_eq_false h.off, ih hact fun c hc => has c (List.mem_cons_of_mem a hc)]
    rfl

theorem resting_of_call (hk : k = .disable ∨ k = .destroy) (hmay : t.mayCall c = true)
    (hnobody : ∀ c' taken, t.pending c' ≠ some ⟨taken, .start⟩) : (t.act (.call c k)).Resting := by
  have hoff : (t.sweeper.first c k).1.running = false := by
    rcases hk with rfl | rfl <;> simp only [first] <;> split
    · exact running_halt t.sweeper c.self
    · rename_i hoff
      simpa using hoff
    · exact running_halt t.sweeper c.self
    · rename_i hoff
      simpa using hoff
  rw [Traffic.act, if_pos hmay]
  refine resting_put hnobody hoff fun taken htaken => ?_
  rw [((opens_first t.sweeper c k).of_start htaken).1] at hk
  rcases hk with hk | hk <;> cases hk

/-! ## Calls that change nothing, and the interval -/

theorem pending_of_mayCall (h : t.mayCall c = true) : t.pending c = none := by
  cases c with
  | outside n => simpa [mayCall] using h
  | worker w =>
    simp only [mayCall, decide_eq_true_eq] at h
    exact h.1

/-- A call that has no more than one section leaves nothing behind it. -/
theorem act_call_of_first (hmay : t.mayCall c = true) (hfirst : t.sweeper.first c k = (s, none)) :
    t.act (.call c k) = { t with sweeper := s } := by
  have hpending : (fun c' => if c' = c then none else t.pending c') = t.pending := by
    funext c'
    split
    · rename_i hc
      rw [hc, pending_of_mayCall hmay]
    · rfl
  rw [act, if_pos hmay, hfirst, put, hpending]

theorem act_call_of_same (hfirst : t.sweeper.first c k = (t.sweeper, none)) : t.act (.call c k) = t := by
  by_cases hmay : t.mayCall c = true
  · exact act_call_of_first hmay hfirst
  · rw [act, if_neg hmay]

theorem dated_act (h : Dated t.sweeper) (a : Action) : Dated (t.act a).sweeper := by
  cases a with
  | call c k =>
    simp only [act]
    split
    · exact h.of_workers (workers_first _ _ _) (keeps_first _ _ _).generation
    · exact h
  | resume c available =>
    rcases act_resume t c available with hsame | ⟨stage, p, _, _, hp, hact⟩
    · rwa [hsame]
    · rw [hact]
      rcases resume_cases hp with hworkers | ⟨_, hoff, _, rfl⟩
      · exact h.of_workers hworkers (keeps_resume hp).1.generation
      · exact h.begin hoff
  | enter w => exact h.idles (idles_enter t.sweeper w)
  | wake w => exact h.idles (idles_wake t.sweeper w)
  | elapse w =>
    rcases elapse_cases t.sweeper w with hidles | ⟨_, hw, hmove⟩
    · exact h.idles hidles
    · simp only [act, hmove]
      exact h.moveTo (by simp [Alive, hw]) (by simp)
  | finish w o =>
    rcases finish_eq t w o with ⟨_, hsame⟩ | ⟨_, hrecord, hmove⟩
    · rwa [hsame]
    · rw [hmove]
      have hgeneration : (t.sweeper.record o).generation = t.sweeper.generation := by cases o <;> rfl
      exact (h.of_workers (workers_record _ o) (Nat.le_of_eq hgeneration.symm)).moveTo
        (by simp [Alive, hrecord]) (by simp)

theorem dated_after (h : Dated t.sweeper) (as : List Action) : Dated (t.after as).sweeper := by
  induction as generalizing t with
  | nil => exact h
  | cons a as ih => exact ih (dated_act h a)

theorem act_setInterval {i : Millis} (hi : 0 < i) (hmay : t.mayCall c = true) :
    t.act (.call c (.setInterval i)) = { t with sweeper := { t.sweeper with
      interval := i, generation := t.sweeper.generation + 1 } } := by
  refine act_call_of_first hmay ?_
  rw [first_setInterval, if_neg (Int64.not_le.2 hi)]

/-- Right behind a new interval no run begins: whoever waited for another one waits anew. -/
theorem begins_behind_setInterval {i : Millis} (h : Dated t.sweeper) (hi : 0 < i)
    (hmay : t.mayCall c = true) (a : Action) : (t.act (.call c (.setInterval i))).begins a = false := by
  rw [act_setInterval hi hmay]
  cases a with
  | elapse w =>
    refine decide_eq_false fun ⟨hout, hin⟩ => ?_
    rcases elapse_cases _ w with hidles | ⟨_, hw, _⟩
    · exact hout (hidles.phase.1 hin)
    · exact absurd (h w _ hw) (Nat.not_succ_le_self _)
  | _ => rfl

/-! ## Whole traffic -/

theorem begun_append (t : Traffic) (as bs : List Action) :
    t.begun (as ++ bs) = t.begun as + (t.after as).begun bs := by
  induction as generalizing t with
  | nil => exact (Nat.zero_add _).symm
  | cons a as ih =>
    rw [List.cons_append, begun, begun, ih, Nat.add_assoc]
    rfl

theorem begun_behind_stop {later : List Action} (hk : k = .disable ∨ k = .destroy)
    (hmay : t.mayCall c = true) (hbegun : t.begun (.call c k :: later) ≠ 0) :
    ∃ c', .call c' .enable ∈ later ∨ ∃ taken, t.pending c' = some ⟨taken, .start⟩ := by
  by_contra hnobody
  push Not at hnobody
  refine hbegun ?_
  have hresting := resting_of_call hk hmay fun c' => (hnobody c').2
  rw [begun, begun_eq_zero hresting fun c' => (hnobody c').1]
  rfl

theorem runs_of_starts (h : t.Starts a) :
    (t.act a).sweeper.runs = t.sweeper.runs ∧ (t.act a).sweeper.failures = t.sweeper.failures ∧
      ∃ w, ¬ t.sweeper.Alive w ∧ (t.act a).sweeper.CanRunAgain w := by
  obtain ⟨c, taken, _, _, hoff, _, hact⟩ := exists_of_starts h
  have hkeeps := (keeps_begin hoff).1
  rw [hact]
  refine ⟨hkeeps.runs, hkeeps.failures, t.sweeper.workers.length, fun h => Nat.lt_irrefl _ h.lt, ?_⟩
  refine canRunAgain_iff.2 ⟨?_, (alive_begin hoff).2 (.inl rfl)⟩
  rw [put, begin_of_off hoff]

theorem dated_of_new {interval : Millis} (hnew : Sweeper.new? true interval = .ok s) : Dated s := by
  intro w g hw
  have hended : s.phase w = .ended := not_not.1 ((fresh_of_new hnew).not_alive w)
  rw [hended] at hw
  cases hw

/-- What begins in traffic has ended by then, or is going on. -/
theorem tallied_of_new {interval : Millis} (hnew : Sweeper.new? true interval = .ok s)
    (as : List Action) :
    ((quiet s).after as).sweeper.runs = ((quiet s).outcomes as).countP Option.isNone ∧
      ((quiet s).after as).sweeper.failures = ((quiet s).outcomes as).countP Option.isSome ∧
      ((quiet s).outcomes as).length + ((quiet s).after as).sweeper.inTask = (quiet s).begun as := by
  obtain ⟨hruns, hfailures, hinTask⟩ := tallied_after (quiet s) as
  have hstart : s.runs = 0 ∧ s.failures = 0 ∧ s.inTask = 0 := by
    unfold Sweeper.new? at hnew
    split at hnew
    · cases hnew
    · split at hnew <;> cases hnew
      exact ⟨rfl, rfl, rfl⟩
  obtain ⟨hzero, hzero', hnone⟩ := hstart
  simp only [quiet, hzero, hzero', hnone, Nat.zero_add] at hruns hfailures hinTask
  exact ⟨hruns, hfailures, (Nat.add_comm _ _).trans hinTask⟩

/-- What there is to say about the runs of a sweeper behind its traffic. -/
structure Accounted (s : Sweeper) (as : List Action) (t : Traffic) : Prop where
  runs : t.sweeper.runs = ((quiet s).outcomes as).countP Option.isNone
  failures : t.sweeper.failures = ((quiet s).outcomes as).countP Option.isSome
  ended : t.sweeper.runs + t.sweeper.failures = ((quiet s).outcomes as).length
  /-- What began has ended or is going on. -/
  begun : ((quiet s).outcomes as).length + t.sweeper.inTask = (quiet s).begun as
  /-- However a run comes out, its thread is back at the top of the loop, and goes on from there if the
  sweeper is on. -/
  goesOn : ∀ w o, t.outcome? (.finish w o) = some o →
    (t.act (.finish w o)).sweeper.phase w = .entering ∧
      ((t.act (.finish w o)).sweeper.CanRunAgain w ↔ t.sweeper.running = true)
  /-- Behind a call that switches the sweeper off no run begins, unless somebody enables it later, or was
  about to. -/
  stopped : ∀ c k later, k = .disable ∨ k = .destroy → t.mayCall c = true →
    t.begun (.call c k :: later) ≠ 0 →
      ∃ c', .call c' .enable ∈ later ∨ ∃ taken, t.pending c' = some ⟨taken, .start⟩
  /-- Where it is switched on, a new thread comes to run the task, and the counts stay. -/
  started : ∀ a, t.Starts a → (t.act a).sweeper.runs = t.sweeper.runs ∧
    (t.act a).sweeper.failures = t.sweeper.failures ∧
      ∃ w, ¬ t.sweeper.Alive w ∧ (t.act a).sweeper.CanRunAgain w
  enabledAgain : ∀ c, t.sweeper.running = true → t.act (.call c .enable) = t
  disabledAgain : ∀ c, t.sweeper.running = false → t.act (.call c .disable) = t
  refused : ∀ c i, i ≤ 0 → t.sweeper.setInterval i = .error (Fault.interval i) ∧
    t.act (.call c (.setInterval i)) = t
  /-- Another interval changes nothing else. No run begins because of it, and the same threads come to run
  the task again. -/
  reset : ∀ c i t', 0 < i → t.mayCall c = true → t.act (.call c (.setInterval i)) = t' →
    t' = { t with sweeper := { t.sweeper with
      interval := i, generation := t.sweeper.generation + 1 } } ∧
    (∀ a, t'.begins a = false) ∧ ∀ w, t'.sweeper.CanRunAgain w ↔ t.sweeper.CanRunAgain w
  /-- Where the task destroys its sweeper and no run fails, the runs that are counted in the end are those
  that had begun by then. -/
  destroyed : ∀ w later t', t.mayCall (.worker w) = true → (∀ c, .call c .enable ∉ later) →
    (∀ c taken, t.pending c ≠ some ⟨taken, .start⟩) →
    t.after (.call (.worker w) .destroy :: later) = t' → t'.sweeper.inTask = 0 →
    (∀ o ∈ (quiet s).outcomes (as ++ .call (.worker w) .destroy :: later), o = none) →
    t'.sweeper.runs = (quiet s).begun as ∧
      (quiet s).begun (as ++ .call (.worker w) .destroy :: later) = (quiet s).begun as

theorem runs_behind_destroy {interval : Millis} (hnew : Sweeper.new? true interval = .ok s)
    {later : List Action} (hmay : ((quiet s).after as).mayCall (.worker w) = true)
    (hlater : ∀ c, .call c .enable ∉ later)
    (hnobody : ∀ c taken, ((quiet s).after as).pending c ≠ some ⟨taken, .start⟩)
    (hnone : (((quiet s).after as).after (.call (.worker w) .destroy :: later)).sweeper.inTask = 0)
    (hall : ∀ o ∈ (quiet s).outcomes (as ++ .call (.worker w) .destroy :: later), o = none) :
    (((quiet s).after as).after (.call (.worker w) .destroy :: later)).sweeper.runs =
        (quiet s).begun as ∧
      (quiet s).begun (as ++ .call (.worker w) .destroy :: later) = (quiet s).begun as := by
  have hresting := resting_of_call (.inr rfl) hmay hnobody
  have hbegun : (quiet s).begun (as ++ .call (.worker w) .destroy :: later) = (quiet s).begun as := by
    rw [begun_append, begun, begun_eq_zero hresting hlater]
    rfl
  obtain ⟨hruns, _, hended⟩ := tallied_of_new hnew (as ++ .call (.worker w) .destroy :: later)
  have hafter : (quiet s).after (as ++ .call (.worker w) .destroy :: later) =
      ((quiet s).after as).after (.call (.worker w) .destroy :: later) := List.foldl_append
  have hsuccess := List.countP_eq_length.2 fun o ho => Option.isNone_iff_eq_none.2 (hall o ho)
  rw [hafter, hsuccess] at hruns
  rw [hafter, hnone, Nat.add_zero, hbegun] at hended
  exact ⟨hruns.trans hended, hbegun⟩

/-- **The runs of a sweeper.** Whatever the traffic of a new sweeper was, with any number of callers and
with runs that came out in any way, the counts are those of the runs that ended; and however it goes on from
there, it is the calls to enable, to disable and to destroy alone that decide whether there are more. -/
theorem runs_are_accounted_for {interval : Millis} {s : Sweeper}
    (hnew : Sweeper.new? true interval = .ok s) {as : List Action} {t : Traffic}
    (ht : (quiet s).after as = t) : Accounted s as t := by
  subst ht
  obtain ⟨hruns, hfailures, hbegun⟩ := tallied_of_new hnew as
  exact {
    runs := hruns
    failures := hfailures
    ended := by
      rw [hruns, hfailures, List.length_eq_countP_add_countP Option.isNone, Nat.add_left_cancel_iff]
      exact List.countP_congr fun o _ => by cases o <;> simp
    begun := hbegun
    goesOn := fun w o => goes_on_of_outcome
    stopped := fun c k later hk hmay => begun_behind_stop hk hmay
    started := fun a => runs_of_starts
    enabledAgain := fun c hon => act_call_of_same (by rw [first, if_pos hon])
    disabledAgain := fun c hoff => act_call_of_same (by rw [first, if_neg (by simp [hoff])])
    refused := fun c i hi => ⟨if_pos hi, act_call_of_same (by rw [first_setInterval, if_pos hi])⟩
    reset := by
      rintro c i t' hi hmay rfl
      have hdated := dated_after (t := quiet s) (dated_of_new hnew) as
      refine ⟨act_setInterval hi hmay, begins_behind_setInterval hdated hi hmay, fun w => ?_⟩
      rw [act_setInterval hi hmay, canRunAgain_iff, canRunAgain_iff]
      rfl
    destroyed := by
      rintro w later t' hmay hlater hnobody rfl hnone hall
      exact runs_behind_destroy hnew hmay hlater hnobody hnone hall }

/-- Who does not call has no call in progress. -/
theorem pending_after_of_silent (hidle : t.pending c = none) (has : ∀ k, .call c k ∉ as) :
    (t.after as).pending c = none := by
  induction as generalizing t with
  | nil => exact hidle
  | cons a as ih =>
    refine ih ?_ fun k hk => has k (List.mem_cons_of_mem a hk)
    have hput : ∀ {c' p}, c' ≠ c → (t.put c' p).pending c = none := fun hne => by
      rw [pending_put, if_neg (Ne.symm hne), hidle]
    cases a with
    | call c' k =>
      have hne : c' ≠ c := fun hc => has k (hc ▸ List.mem_cons_self)
      simp only [act]
      split
      · exact hput hne
      · exact hidle
    | resume c' available =>
      rcases act_resume t c' available with hsame | ⟨stage, p, hpending, _, _, hact⟩
      · rw [hsame, hidle]
      · have hne : c' ≠ c := fun hc => by
          rw [hc, hidle] at hpending
          cases hpending
        rw [hact]
        exact hput hne
    | finish w o =>
      simp only [act]
      split <;> exact hidle
    | _ => exact hidle

/-- The first run comes out as it may, and an interval is set behind it. The second one switches the
sweeper off and comes back. It is switched on again, and a third run is under way on a thread of its own. -/
def threeRuns (o : Option Text) : List Action :=
  firstRun ++ [.finish 0 o, .enter 0, .call (.outside 0) (.setInterval 10), .wake 0, .elapse 0,
    .call (.worker 0) .disable, .resume (.worker 0) true, .finish 0 none, .enter 0,
    .call (.outside 0) .enable, .resume (.outside 0) true, .enter 1, .elapse 1]

theorem runs_are_accounted_for_in_three_runs :
    (∃ t, (quiet minutely).after (threeRuns (some "store unavailable")) = t ∧
      t.sweeper.runs = 1 ∧ t.sweeper.failures = 1) ∧
    ∃ t, (quiet minutely).after (threeRuns none) = t ∧ t.mayCall (.worker 1) = true ∧
      (t.after [.call (.worker 1) .destroy, .resume (.worker 1) true, .resume (.worker 1) true,
        .finish 1 none, .enter 1]).sweeper.runs = 3 := by
  have hfailed :=
    @runs_are_accounted_for 60000 minutely (by decide) (threeRuns (some "store unavailable")) _ rfl
  have hdestroyed := (@runs_are_accounted_for 60000 minutely (by decide) (threeRuns none) _ rfl).destroyed
  have hidle : ∀ c, ((quiet minutely).after (threeRuns none)).pending c = none := by
    intro c
    by_cases houtside : c = .outside 0
    · rw [houtside]
      decide
    · by_cases hworker : c = .worker 0
      · rw [hworker]
        decide
      · exact pending_after_of_silent rfl (by simp [threeRuns, firstRun, houtside, hworker])
  refine ⟨⟨_, rfl, hfailed.runs.trans (by decide), hfailed.failures.trans (by decide)⟩, _, rfl,
    by decide, ?_⟩
  refine (hdestroyed 1 _ _ (by decide) (by simp) ?_ rfl (by decide) (by decide)).1.trans (by decide)
  intro c taken
  rw [hidle c]
  simp

end Traffic
end Sweeper
end Sessions
