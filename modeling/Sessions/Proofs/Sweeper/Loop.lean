import Sessions.Sweeper.Traffic

/-!
# Sessions.Proofs.Sweeper.Loop

The loop of a single thread. The thread takes its orders from the running flag alone: as long as that
is up it never ends, and it comes round to another run of the task; once it is down there is no run
that the thread would begin.

* `Sweeper.Moves` says what a move of one thread leaves as it was.
* `Sweeper.canRunAgain_iff`: a thread left to itself begins another run if and only if the flag is up
  and the thread has not ended.
-/

namespace Sessions
namespace Sweeper

variable {s s' : Sweeper} {w v : WorkerId} {p : Phase}

def Alive (s : Sweeper) (w : WorkerId) : Prop := s.phase w ≠ .ended

instance (s : Sweeper) (w : WorkerId) : Decidable (s.Alive w) := inferInstanceAs (Decidable (_ ≠ _))

theorem Alive.lt (h : s.Alive w) : w < s.workers.length := by
  refine Nat.lt_of_not_le fun hlen => h ?_
  simp [phase, List.getD_eq_getElem?_getD, List.getElem?_eq_none hlen]

theorem phase_moveTo (h : s.Alive w) (p : Phase) : (s.moveTo w p).phase w = p := by
  simp [phase, moveTo, List.getD_eq_getElem?_getD, h.lt]

theorem phase_moveTo_of_ne (h : v ≠ w) (p : Phase) : (s.moveTo w p).phase v = s.phase v := by
  simp [phase, moveTo, List.getD_eq_getElem?_getD, h.symm]

/-! ## Moves -/

/-- One move of the loop of a thread. -/
inductive Move where
  | enter
  | wake
  | elapse
  | finish (failure : Option Text)

def move (w : WorkerId) (s : Sweeper) : Move → Sweeper
  | .enter => s.enter w
  | .wake => s.wake w
  | .elapse => s.elapse w
  | .finish failure => (s.finish w failure).1

/-- A move of a thread concerns that thread only: it stays ended once it ended, and it does not end
as long as the sweeper is on. -/
structure Moves (w : WorkerId) (s s' : Sweeper) : Prop where
  running : s'.running = s.running
  thread : s'.thread = s.thread
  length : s'.workers.length = s.workers.length
  others : ∀ v, v ≠ w → s'.phase v = s.phase v
  ended : s.phase w = .ended → s'.phase w = .ended
  goesOn : s.running = true → s.Alive w → s'.Alive w

theorem Moves.refl (w : WorkerId) (s : Sweeper) : Moves w s s :=
  ⟨rfl, rfl, rfl, fun _ _ => rfl, id, fun _ h => h⟩

/-- Nothing that a thread does brings one to life. -/
theorem Moves.alive (h : Moves w s s') (hv : s'.Alive v) : s.Alive v := by
  by_cases hvw : v = w
  · subst hvw
    exact fun hended => hv (h.ended hended)
  · rwa [Alive, ← h.others v hvw]

theorem moves_moveTo (h : s.Alive w) (hp : s.running = true → p ≠ .ended) :
    Moves w s (s.moveTo w p) where
  running := rfl
  thread := rfl
  length := by simp [moveTo]
  others _ hv := phase_moveTo_of_ne hv p
  ended hw := absurd hw h
  goesOn hrunning _ := by
    rw [Alive, phase_moveTo h]
    exact hp hrunning

theorem moves_enter (s : Sweeper) (w : WorkerId) : Moves w s (s.enter w) := by
  unfold enter
  split
  · rename_i hw
    exact moves_moveTo (by simp [Alive, hw]) fun h => by simp [h]
  · exact .refl w s

theorem moves_wake (s : Sweeper) (w : WorkerId) : Moves w s (s.wake w) := by
  unfold wake
  split
  · rename_i g hw
    have halive : s.Alive w := by simp [Alive, hw]
    split
    · rename_i hoff
      exact moves_moveTo halive fun h => by simp [h] at hoff
    · split
      · exact moves_moveTo halive fun _ => by simp
      · exact .refl w s
  · exact .refl w s

theorem moves_elapse (s : Sweeper) (w : WorkerId) : Moves w s (s.elapse w) := by
  unfold elapse
  split
  · rename_i g hw
    split
    · exact moves_moveTo (by simp [Alive, hw]) fun _ => by simp
    · exact moves_wake s w
  · exact .refl w s

theorem moves_finish (s : Sweeper) (w : WorkerId) (failure : Option Text) :
    Moves w s (s.finish w failure).1 := by
  have counted : ∀ s' : Sweeper, s'.workers = s.workers → s'.running = s.running →
      s'.thread = s.thread → s.phase w = .sweeping → Moves w s (s'.moveTo w .entering) := by
    intro s' hworkers hrunning hthread hw
    have hphase : ∀ v, s'.phase v = s.phase v := fun v => by rw [phase, phase, hworkers]
    have halive : s'.Alive w := by simp [Alive, hphase, hw]
    have hmoves := moves_moveTo (p := .entering) halive fun _ => by simp
    exact ⟨hmoves.running.trans hrunning, hmoves.thread.trans hthread,
      hmoves.length.trans (by rw [hworkers]), fun v hv => (hmoves.others v hv).trans (hphase v),
      fun h => absurd (h.symm.trans hw) (by simp), fun _ _ => by
        rw [Alive, phase_moveTo halive]
        simp⟩
  unfold finish
  split
  · rename_i hw
    exact counted _ rfl rfl rfl hw
  · rename_i hw
    exact counted _ rfl rfl rfl hw
  · exact .refl w s

theorem moves_move (w : WorkerId) (s : Sweeper) (m : Move) : Moves w s (s.move w m) := by
  cases m with
  | enter => exact moves_enter s w
  | wake => exact moves_wake s w
  | elapse => exact moves_elapse s w
  | finish failure => exact moves_finish s w failure

/-! ## Another run -/

/-- A thread that is left to itself comes to the point where it begins to run the task. -/
def CanRunAgain (s : Sweeper) (w : WorkerId) : Prop :=
  ∃ ms : List Move, (ms.foldl (move w) s).phase w ≠ .sweeping ∧
    ((ms.foldl (move w) s).elapse w).phase w = .sweeping

theorem running_and_alive_of_elapse (h : s.phase w ≠ .sweeping)
    (hrun : (s.elapse w).phase w = .sweeping) : s.running = true ∧ s.Alive w := by
  have halive : s.Alive w := by
    intro hended
    rw [(moves_elapse s w).ended hended] at hrun
    cases hrun
  refine ⟨?_, halive⟩
  cases hrunning : s.running with
  | true => rfl
  | false =>
    unfold elapse at hrun
    split at hrun
    · rw [if_neg (by simp [hrunning])] at hrun
      unfold wake at hrun
      split at hrun
      · rw [if_pos (by simp [hrunning]), phase_moveTo halive] at hrun
        cases hrun
      · exact absurd hrun h
    · exact absurd hrun h

theorem alive_and_running_of_moves (ms : List Move)
    (h : (ms.foldl (move w) s).running = true ∧ (ms.foldl (move w) s).Alive w) :
    s.running = true ∧ s.Alive w := by
  induction ms generalizing s with
  | nil => exact h
  | cons m ms ih =>
    obtain ⟨hrunning, halive⟩ := ih h
    have hmoves := moves_move w s m
    exact ⟨hmoves.running.symm.trans hrunning, fun hended => halive (hmoves.ended hended)⟩

theorem elapse_waiting (hrunning : s.running = true) (hw : s.phase w = .waiting s.generation) :
    (s.elapse w).phase w = .sweeping := by
  unfold elapse
  rw [hw]
  simp only [hrunning, and_self, if_true]
  exact phase_moveTo (by simp [Alive, hw]) _

theorem enter_entering (hrunning : s.running = true) (hw : s.phase w = .entering) :
    (s.enter w).phase w = .waiting (s.enter w).generation := by
  unfold enter
  rw [hw]
  simp only [hrunning, if_true]
  exact phase_moveTo (by simp [Alive, hw]) _

theorem canRunAgain_of_entering (hrunning : s.running = true) (hw : s.phase w = .entering) :
    s.CanRunAgain w := by
  have hwaiting := enter_entering hrunning hw
  refine ⟨[.enter], ?_, elapse_waiting ((moves_enter s w).running.trans hrunning) hwaiting⟩
  change (s.enter w).phase w ≠ .sweeping
  rw [hwaiting]
  simp

/-- Woken up for another interval it waits for that one. -/
theorem canRunAgain_of_waiting {g : Nat} (hrunning : s.running = true)
    (hw : s.phase w = .waiting g) : s.CanRunAgain w := by
  by_cases hg : s.generation = g
  · exact ⟨[], by simp [hw], elapse_waiting hrunning (hg ▸ hw)⟩
  · have hwake : s.wake w = s.moveTo w (.waiting s.generation) := by
      unfold wake
      rw [hw]
      simp [hrunning, hg]
    have hwaiting : (s.wake w).phase w = .waiting (s.wake w).generation := by
      rw [hwake, phase_moveTo (by simp [Alive, hw])]
      rfl
    refine ⟨[.wake], ?_, elapse_waiting ((moves_wake s w).running.trans hrunning) hwaiting⟩
    change (s.wake w).phase w ≠ .sweeping
    rw [hwaiting]
    simp

theorem canRunAgain_of_sweeping (hrunning : s.running = true) (hw : s.phase w = .sweeping) :
    s.CanRunAgain w := by
  have halive : s.Alive w := by simp [Alive, hw]
  have hentering : (s.finish w none).1.phase w = .entering := by
    unfold finish
    rw [hw]
    exact phase_moveTo (by rwa [Alive]) _
  obtain ⟨ms, hms⟩ :=
    canRunAgain_of_entering ((moves_finish s w none).running.trans hrunning) hentering
  exact ⟨.finish none :: ms, hms⟩

/-- **What a thread goes by.** A thread begins another run of the task if and only if the sweeper is
on and the thread has not ended, wherever in its loop it is. -/
theorem canRunAgain_iff : s.CanRunAgain w ↔ s.running = true ∧ s.Alive w := by
  constructor
  · rintro ⟨ms, hnot, hrun⟩
    exact alive_and_running_of_moves ms (running_and_alive_of_elapse hnot hrun)
  · rintro ⟨hrunning, halive⟩
    cases hw : s.phase w with
    | entering => exact canRunAgain_of_entering hrunning hw
    | waiting g => exact canRunAgain_of_waiting hrunning hw
    | sweeping => exact canRunAgain_of_sweeping hrunning hw
    | ended => exact absurd hw halive

end Sweeper
end Sessions
