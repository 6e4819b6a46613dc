import Sessions.Log

/-!
# Sessions.Proofs.Log.Levels

A log and the same log up to a level. Lines above the level are left out, and nothing above it is taken
any more.

* `Log.upTo_write`: to write and then to leave out is to write into what is left.
* `Logbook` is a state with a log in it, `inTurn` what a list of commands answers there, one after the
  other.
* `Logbook.Ignores` says that a step does the same whatever was left out of the log before, and
  `Logbook.softened` what follows for runs that differ in the level of their logs.
-/

namespace Sessions

variable {a b : Level}

namespace Level

theorem covers_iff {current l : Level} :
    current.covers l = true ↔ l.rank ≠ 0 ∧ l.rank ≤ current.rank := by
  simp [covers]

theorem not_covers_silent (l : Level) : silent.covers l = false := by
  have hzero : l.rank ≤ 0 ↔ l.rank = 0 := by
    rw [UInt8.le_iff_toNat_le, ← UInt8.toNat_inj]
    simp
  rw [Bool.eq_false_iff]
  intro h
  obtain ⟨hne, hle⟩ := covers_iff.1 h
  exact hne (hzero.1 hle)

/-- The lower one of two levels. -/
def least (a b : Level) : Level := if a.rank ≤ b.rank then a else b

theorem least_of_le (h : a.rank ≤ b.rank) : least a b = a := if_pos h

theorem covers_least (a b l : Level) : (least a b).covers l = (a.covers l && b.covers l) := by
  rw [Bool.eq_iff_iff, Bool.and_eq_true, covers_iff, covers_iff, covers_iff]
  unfold least
  by_cases h : a.rank ≤ b.rank
  · rw [if_pos h]
    exact ⟨fun hl => ⟨hl, hl.1, UInt8.le_trans hl.2 h⟩, fun hl => hl.1⟩
  · rw [if_neg h]
    have hba : b.rank ≤ a.rank := (UInt8.le_total a.rank b.rank).resolve_left h
    exact ⟨fun hl => ⟨⟨hl.1, UInt8.le_trans hl.2 hba⟩, hl⟩, fun hl => hl.2⟩

end Level

namespace Log

/-- The log as it is if its level is at most the given one. -/
def upTo (a : Level) (g : Log) : Log where
  level := a.least g.level
  lines := g.lines.filter (a.covers ·.level)

theorem upTo_write (a : Level) (g : Log) (level : Level) (message : Text) :
    (g.write level message).upTo a = (g.upTo a).write level message := by
  have hcovers : (g.upTo a).level.covers level = (a.covers level && g.level.covers level) :=
    Level.covers_least a g.level level
  unfold write
  rw [hcovers]
  cases hg : g.level.covers level with
  | false => simp
  | true =>
    cases ha : a.covers level with
    | false => simp [upTo, ha]
    | true => simp [upTo, ha]

theorem upTo_writeAll (a : Level) (g : Log) (ls : List LogLine) :
    (g.writeAll ls).upTo a = (g.upTo a).writeAll ls := by
  induction ls generalizing g with
  | nil => rfl
  | cons l ls ih =>
    have hrest := ih (g.write l.level l.message)
    rwa [upTo_write] at hrest

theorem upTo_new (h : a.rank ≤ b.rank) : (Log.new b).upTo a = Log.new a := by
  simp [upTo, new, Level.least_of_le h]

/-- What a log holds that nothing was left out of. -/
theorem covers_of_mem {g : Log} (h : g.upTo b = g) {l : LogLine} (hl : l ∈ g.lines) :
    b.covers l.level = true := by
  rw [← h] at hl
  exact (List.mem_filter.1 hl).2

end Log

/-! ## Commands in turn -/

variable {C R σ : Type}

/-- What commands answer, one after the other, and the state behind them. -/
def inTurn (step : C → σ → R × σ) : List C → σ → List R × σ
  | [], s => ([], s)
  | c :: cs, s =>
    let (r, s) := step c s
    let (rs, s) := inTurn step cs s
    (r :: rs, s)

/-- A view that goes with every command goes with all of them. -/
theorem view_inTurn {step : C → σ → R × σ} {view : σ → σ}
    (h : ∀ c s, Prod.map id view (step c s) = step c (view s)) (cs : List C) (s : σ) :
    Prod.map id view (inTurn step cs s) = inTurn step cs (view s) := by
  induction cs generalizing s with
  | nil => rfl
  | cons c cs ih =>
    rw [inTurn, inTurn, ← h c s]
    simp only [Prod.map_snd, ← ih]
    rfl

/-- A state with a log in it. -/
structure Logbook (σ : Type) where
  log : σ → Log
  setLog : Log → σ → σ
  log_setLog : ∀ g s, log (setLog g s) = g
  setLog_log : ∀ s, setLog (log s) s = s
  setLog_setLog : ∀ g g' s, setLog g (setLog g' s) = setLog g s

namespace Logbook

variable (k : Logbook σ)

def upTo (a : Level) (s : σ) : σ := k.setLog ((k.log s).upTo a) s

theorem log_upTo (a : Level) (s : σ) : k.log (k.upTo a s) = (k.log s).upTo a := k.log_setLog _ s

/-- The step does not depend on what is left out of the log. -/
def Ignores (step : C → σ → R × σ) : Prop :=
  ∀ a c s, Prod.map id (k.upTo a) (step c s) = step c (k.upTo a s)

/-- The first outcome is the second one with a log up to a level: the answers are the same, so is all of
the state but the log, and of the lines of the log there are those up to that level, in their order; at
the level that silences there are none. -/
structure Softened (a : Level) (o o' : R × σ) : Prop where
  answers : o.1 = o'.1
  state : o.2 = k.setLog (k.log o.2) o'.2
  lines : (k.log o.2).lines = (k.log o'.2).lines.filter (·.level.rank ≤ a.rank)
  silence : a = .silent → (k.log o.2).lines = []

variable {k}

/-- Steps that do not depend on the log differ in nothing else, if their logs do not at first. -/
theorem softened {step : C → σ → R × σ} (hstep : k.Ignores step) {s s' : σ} (hs : k.upTo a s' = s)
    (hs' : k.upTo b s' = s') (cs : List C) :
    k.Softened a (inTurn step cs s) (inTurn step cs s') := by
  have hrun : Prod.map id (k.upTo a) (inTurn step cs s') = inTurn step cs s := by
    rw [view_inTurn (hstep a), hs]
  have hrun' : k.upTo b (inTurn step cs s').2 = (inTurn step cs s').2 := by
    have hpair := view_inTurn (hstep b) cs s'
    rw [hs'] at hpair
    exact congrArg Prod.snd hpair
  have hlog : k.log (inTurn step cs s).2 = (k.log (inTurn step cs s').2).upTo a := by
    rw [← hrun]
    exact k.log_upTo a _
  refine ⟨by rw [← hrun]; rfl, ?_, ?_, ?_⟩
  · rw [hlog, ← hrun]
    rfl
  · rw [hlog]
    refine List.filter_congr fun l hl => ?_
    -- every line passed the level of its own log, so none of them is of the level that silences
    have hlogged : (k.log (inTurn step cs s').2).upTo b = k.log (inTurn step cs s').2 := by
      rw [← k.log_upTo, hrun']
    have hloud := Level.covers_iff.1 (Log.covers_of_mem hlogged hl)
    rw [Bool.eq_iff_iff, Level.covers_iff, decide_eq_true_iff]
    exact ⟨fun h => h.2, fun h => ⟨hloud.1, h⟩⟩
  · rintro rfl
    rw [hlog]
    simp [Log.upTo, Level.not_covers_silent]

end Logbook
end Sessions
