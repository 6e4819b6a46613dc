import Mathlib.Data.List.Induction
import Sessions.Proofs.Sweeper.Loop

/-!
# Sessions.Proofs.Sweeper.Threads

How many threads of one sweeper can begin another run of the task.

A thread goes by the running flag, and the flag is shared. To lower it tells every thread to end, and
to raise it again takes that back, for every thread that has not ended by then. So there is one
thread at most as long as each new one is started behind the end of those before it. A caller from
outside sees to that, by waiting. The task cannot: it would wait for itself. Where it switches its
sweeper off and on again, its own thread goes on beside the new one.

* `Traffic.act_cases`: a section of a caller, a move of a thread, or the start of a new one.
* `Traffic.exclusive_iff`: one thread at most, exactly if none is started beside another.
-/

namespace Sessions
namespace Sweeper

variable {s s' : Sweeper} {v w : WorkerId} {c : Caller} {k : Call}

theorem phase_of_workers (h : s'.workers = s.workers) (w : WorkerId) : s'.phase w = s.phase w := by
  rw [phase, phase, h]

theorem alive_of_workers (h : s'.workers = s.workers) : s'.Alive w ↔ s.Alive w := by
  rw [Alive, Alive, phase_of_workers h]

/-! ## Sections -/

theorem workers_halt (s : Sweeper) (caller : Option WorkerId) :
    (s.halt caller).2.workers = s.workers := by
  unfold halt
  split <;> rfl

theorem workers_first (s : Sweeper) (c : Caller) (k : Call) :
    (s.first c k).1.workers = s.workers := by
  cases k with
  | enable =>
    simp only [first]
    split <;> rfl
  | disable =>
    simp only [first]
    split
    · exact workers_halt s c.self
    · rfl
  | setInterval interval =>
    simp only [first, setInterval]
    split
    · rename_i h
      split at h <;> cases h
      rfl
    · rfl
  | destroy =>
    simp only [first]
    split
    · exact workers_halt s c.self
    · rfl

theorem begin_of_off (h : s.running = false) : s.begin.1 = { s with
    running := true
    thread := some s.workers.length
    workers := s.workers ++ [.entering] } := by
  unfold begin
  rw [if_neg (by simp [h])]

theorem phase_begin (h : s.running = false) (w : WorkerId) :
    s.begin.1.phase w = if w = s.workers.length then .entering else s.phase w := by
  rw [begin_of_off h]
  unfold phase
  simp only [List.getD_eq_getElem?_getD]
  by_cases hw : w = s.workers.length
  · simp [hw]
  · rw [if_neg hw]
    rcases Nat.lt_or_gt_of_ne hw with hlt | hgt
    · rw [List.getElem?_append_left hlt]
    · have hlen : (s.workers ++ [Phase.entering]).length ≤ w := by simpa using Nat.succ_le_of_lt hgt
      rw [List.getElem?_eq_none hlen, List.getElem?_eq_none (Nat.le_of_lt hgt)]

theorem alive_begin (h : s.running = false) :
    s.begin.1.Alive w ↔ w = s.workers.length ∨ s.Alive w := by
  rw [Alive, phase_begin h]
  by_cases hw : w = s.workers.length
  · simp [hw]
  · simp [hw, Alive]

/-- The second section of enabling starts a thread, or changes nothing. -/
theorem second_cases {available : Bool} (h : s.second available = some s') :
    s' = s ∨ s.running = false ∧ s.thread = none ∧ s' = s.begin.1 := by
  unfold second at h
  split at h
  · cases h
    exact Or.inl rfl
  · rename_i hoff
    split at h
    · cases h
      exact Or.inl rfl
    · split at h
      · cases h
      · rename_i hnone
        cases h
        exact Or.inr ⟨by simpa using hoff, by simpa using hnone, rfl⟩

/-- Behind the wait of a call a thread is started, or none is. -/
theorem resume_cases {available : Bool} {rest : Rest} {p : Sweeper × Option Stage}
    (h : s.resume available rest = some p) :
    p.1.workers = s.workers ∨
      rest = .start ∧ s.running = false ∧ s.thread = none ∧ p = (s.begin.1, none) := by
  cases rest with
  | start =>
    obtain ⟨s', hs', rfl⟩ := Option.map_eq_some_iff.1 h
    rcases second_cases hs' with rfl | ⟨hoff, hnone, rfl⟩
    · exact Or.inl rfl
    · exact Or.inr ⟨rfl, hoff, hnone, rfl⟩
  | letGo =>
    cases h
    exact Or.inl rfl
  | leave =>
    cases h
    exact Or.inl rfl

namespace Traffic

variable {t : Traffic} {a : Action}

/-- What an action comes to: a move of one thread, a section that leaves all threads where they are,
or the start of a new one, by a caller that enables and found the sweeper off. -/
theorem act_cases (t : Traffic) (a : Action) :
    (∃ w, Moves w t.sweeper (t.act a).sweeper ∧ (t.act a).pending = t.pending) ∨
    (t.act a).sweeper.workers = t.sweeper.workers ∨
    ∃ c taken, t.pending c = some ⟨taken, .start⟩ ∧ t.joined c ⟨taken, .start⟩ = true ∧
      t.sweeper.running = false ∧ t.sweeper.thread = none ∧
      t.act a = t.put c (t.sweeper.begin.1, none) := by
  cases a with
  | call c k =>
    simp only [act]
    split
    · exact Or.inr (Or.inl (workers_first t.sweeper c k))
    · exact Or.inr (Or.inl rfl)
  | resume c available =>
    simp only [act]
    cases hpending : t.pending c with
    | none => exact Or.inr (Or.inl rfl)
    | some stage =>
      dsimp only
      split
      · rename_i hjoined
        cases hresume : t.sweeper.resume available stage.rest with
        | none => exact Or.inr (Or.inl rfl)
        | some p =>
          rcases resume_cases hresume with hsame | ⟨hrest, hoff, hnone, rfl⟩
          · exact Or.inr (Or.inl hsame)
          · obtain ⟨taken, rest⟩ := stage
            cases hrest
            exact Or.inr (Or.inr ⟨c, taken, hpending, hjoined, hoff, hnone, rfl⟩)
      · exact Or.inr (Or.inl rfl)
  | enter w => exact Or.inl ⟨w, moves_enter t.sweeper w, rfl⟩
  | wake w => exact Or.inl ⟨w, moves_wake t.sweeper w, rfl⟩
  | elapse w => exact Or.inl ⟨w, moves_elapse t.sweeper w, rfl⟩
  | finish w failure =>
    simp only [act]
    split
    · exact Or.inl ⟨w, moves_finish t.sweeper w failure, rfl⟩
    · exact Or.inr (Or.inl rfl)

/-- The action starts a thread. -/
def Starts (t : Traffic) (a : Action) : Prop :=
  t.sweeper.workers.length < (t.act a).sweeper.workers.length

/-- Nothing brings a thread to life but its start. -/
theorem alive_of_act (hv : (t.act a).sweeper.Alive v) : t.sweeper.Alive v ∨ t.Starts a := by
  rcases act_cases t a with ⟨w, hmoves, _⟩ | hworkers | ⟨c, taken, _, _, hoff, _, hact⟩
  · exact Or.inl (hmoves.alive hv)
  · exact Or.inl ((alive_of_workers hworkers).1 hv)
  · refine Or.inr ?_
    rw [Starts, hact]
    simp [put, begin_of_off hoff]

/-- A thread is started in the second section of enabling. -/
theorem exists_of_starts (h : t.Starts a) :
    ∃ c taken, t.pending c = some ⟨taken, .start⟩ ∧ t.joined c ⟨taken, .start⟩ = true ∧
      t.sweeper.running = false ∧ t.sweeper.thread = none ∧
      t.act a = t.put c (t.sweeper.begin.1, none) := by
  unfold Starts at h
  rcases act_cases t a with ⟨w, hmoves, _⟩ | hworkers | hstart
  · rw [hmoves.length] at h
    exact absurd h (Nat.lt_irrefl _)
  · rw [hworkers] at h
    exact absurd h (Nat.lt_irrefl _)
  · exact hstart

/-! ## One thread at most -/

/-- At most one thread can begin another run. -/
def Exclusive (t : Traffic) : Prop :=
  ∀ v w, t.sweeper.CanRunAgain v → t.sweeper.CanRunAgain w → v = w

/-- At most one thread has not ended. -/
def Lone (s : Sweeper) : Prop := ∀ v w, s.Alive v → s.Alive w → v = w

theorem Lone.exclusive (h : Lone t.sweeper) : t.Exclusive := fun v w hv hw =>
  h v w (canRunAgain_iff.1 hv).2 (canRunAgain_iff.1 hw).2

theorem Lone.act (h : Lone t.sweeper) (hstarts : t.Starts a → ∀ w, ¬t.sweeper.Alive w) :
    Lone (t.act a).sweeper := by
  by_cases hstart : t.Starts a
  · obtain ⟨c, taken, _, _, hoff, _, hact⟩ := exists_of_starts hstart
    have hnew : ∀ w, (t.act a).sweeper.Alive w → w = t.sweeper.workers.length := by
      intro w hw
      rw [hact] at hw
      exact ((alive_begin hoff).1 hw).resolve_right (hstarts hstart w)
    intro v w hv hw
    rw [hnew v hv, hnew w hw]
  · intro v w hv hw
    exact h v w ((alive_of_act hv).resolve_right hstart) ((alive_of_act hw).resolve_right hstart)

theorem not_exclusive_of_starts (h : t.Starts a) (hw : t.sweeper.Alive w) :
    ¬(t.act a).Exclusive := by
  obtain ⟨c, taken, _, _, hoff, _, hact⟩ := exists_of_starts h
  intro hexclusive
  have hrunning : (t.act a).sweeper.running = true := by
    rw [hact]
    simp [put, begin_of_off hoff]
  have halive : ∀ v, v = t.sweeper.workers.length ∨ t.sweeper.Alive v →
      (t.act a).sweeper.Alive v := by
    intro v hv
    rw [hact]
    exact (alive_begin hoff).2 hv
  have hsame := hexclusive w t.sweeper.workers.length
    (canRunAgain_iff.2 ⟨hrunning, halive _ (Or.inr hw)⟩)
    (canRunAgain_iff.2 ⟨hrunning, halive _ (Or.inl rfl)⟩)
  exact absurd hw.lt (by simp [hsame])

theorem after_snoc (t : Traffic) (as : List Action) (a : Action) :
    t.after (as ++ [a]) = (t.after as).act a := by
  simp [after]

/-- From one thread at most to one thread at most, if none is started beside another. -/
theorem lone_after {as : List Action} (hlone : Lone t.sweeper)
    (h : ∀ before a, before ++ [a] <+: as → (t.after before).Starts a →
      ∀ w, ¬(t.after before).sweeper.Alive w) {before : List Action} (hbefore : before <+: as) :
    Lone (t.after before).sweeper := by
  induction before using List.reverseRecOn with
  | nil => exact hlone
  | append_singleton before a ih =>
    rw [after_snoc]
    exact (ih ((List.prefix_append before [a]).trans hbefore)).act (h before a hbefore)

/-- There is one thread at most that can begin another run, all the time, if and only if no thread is
ever started before all others have ended. -/
theorem exclusive_iff (hlone : Lone t.sweeper) (as : List Action) :
    (∀ before, before <+: as → (t.after before).Exclusive) ↔
      ∀ before a, before ++ [a] <+: as → (t.after before).Starts a →
        ∀ w, ¬(t.after before).sweeper.Alive w := by
  constructor
  · intro h before a hprefix hstarts w hw
    have hexclusive := h _ hprefix
    rw [after_snoc] at hexclusive
    exact not_exclusive_of_starts hstarts hw hexclusive
  · exact fun h before hbefore => (lone_after hlone h hbefore).exclusive

end Traffic
end Sweeper
end Sessions
