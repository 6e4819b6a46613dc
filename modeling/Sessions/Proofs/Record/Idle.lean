import Sessions.Proofs.Record.Life

/-!
# Sessions.Proofs.Record.Idle

When a live session is timed out, told in whole numbers. A record takes the time since its last access
modulo `2 ^ 64` and reads it as a signed number, so a session that nobody used for `2 ^ 63` milliseconds
or more seems to have been used in the future.

* `Record.elapsed`: the time since the last access as a whole number. `Record.toInt_idle`: what the record
  takes it for.
* `Record.judgement`: the law, on whole numbers. It never takes an expiry back (`judgement_mono`).
* `Record.idle_law`: a record keeps the law short of `Record.horizon`, and takes nothing for timed out from
  there on.
-/

namespace Sessions

/-- A word read as a signed number. -/
theorem Millis.toInt_toInt64 (x : UInt64) :
    x.toInt64.toInt =
      if 2 * x.toNat < UInt64.size then (x.toNat : Int) else (x.toNat : Int) - UInt64.size :=
  BitVec.toInt_eq_toNat_cond x.toBitVec

namespace Record

variable {r : Record} {now later : Timestamp}

/-- The time since the last access; negative where the clock went back. -/
def elapsed (r : Record) (now : Timestamp) : Int := (now.toNat : Int) - (r.lastAccess.toNat : Int)

/-- `2 ^ 63`, the least time that is no signed 64-bit number of milliseconds. -/
def horizon : Int := 9223372036854775808

/-- The session was idle for longer than its timeout, if that ever runs out. -/
def Overdue (r : Record) (now : Timestamp) : Prop :=
  0 ≤ r.timeout.toInt ∧ r.timeout.toInt < r.elapsed now

instance (r : Record) (now : Timestamp) : Decidable (r.Overdue now) := inferInstanceAs (Decidable (_ ∧ _))

/-- The state of a session by the law. -/
def judgement (r : Record) (now : Timestamp) : Validity :=
  if r.isStopped then .stopped
  else if r.expired then .expired
  else if r.Overdue now then .timedOut
  else .valid

/-! ## The law -/

theorem elapsed_mono (r : Record) (h : now ≤ later) : r.elapsed now ≤ r.elapsed later := by
  have hle : now.toNat ≤ later.toNat := UInt64.le_iff_toNat_le.1 h
  unfold elapsed
  omega

theorem judgement_eq_timedOut_iff :
    r.judgement now = .timedOut ↔ r.isTerminal = false ∧ r.Overdue now := by
  unfold judgement isTerminal
  cases r.isStopped <;> cases r.expired <;> by_cases hdue : r.Overdue now <;> simp [hdue]

/-- What is timed out by the law stays so. -/
theorem judgement_mono (h : now ≤ later) (hnow : r.judgement now = .timedOut) :
    r.judgement later = .timedOut := by
  rw [judgement_eq_timedOut_iff] at hnow ⊢
  obtain ⟨hlive, hbound, hdue⟩ := hnow
  have hmono := r.elapsed_mono h
  exact ⟨hlive, hbound, by omega⟩

/-! ## What a record takes for the idle time -/

/-- From the horizon on the idle time comes out negative. -/
theorem toInt_idle (h : r.lastAccess < now) :
    (r.idle now).toInt =
      if r.elapsed now < horizon then r.elapsed now else r.elapsed now - UInt64.size := by
  have hlt : r.lastAccess.toNat < now.toNat := UInt64.lt_iff_toNat_lt.1 h
  have hsub : (now - r.lastAccess).toNat = now.toNat - r.lastAccess.toNat :=
    UInt64.toNat_sub_of_le _ _ (UInt64.le_of_lt h)
  rw [idle, Millis.toInt_toInt64, hsub]
  unfold elapsed horizon UInt64.size
  split <;> split <;> omega

theorem exceeds_iff : 0 ≤ r.timeout ∧ r.lastAccess < now ∧ r.timeout < r.idle now ↔
    r.Overdue now ∧ r.elapsed now < horizon := by
  have hbound : now.toNat < UInt64.size := now.toNat_lt
  have hzero : (0 : Millis).toInt = 0 := rfl
  rw [Int64.le_iff_toInt_le, hzero, Int64.lt_iff_toInt_lt]
  constructor
  · intro ⟨hnonneg, hafter, hidle⟩
    rw [toInt_idle hafter] at hidle
    split at hidle
    · rename_i hshort
      exact ⟨⟨hnonneg, hidle⟩, hshort⟩
    · -- the idle time is negative here, and no timeout is below it
      exfalso
      unfold elapsed at hidle
      omega
  · intro ⟨⟨hnonneg, hdue⟩, hshort⟩
    have hafter : r.lastAccess < now := by
      rw [UInt64.lt_iff_toNat_lt]
      unfold elapsed at hdue
      omega
    rw [toInt_idle hafter, if_pos hshort]
    exact ⟨hnonneg, hafter, hdue⟩

/-- A record departs from the law for sessions that are timed out and were left alone for too long, and
takes them for valid. -/
theorem validity_eq (r : Record) (now : Timestamp) :
    r.validity now =
      if r.judgement now = .timedOut ∧ horizon ≤ r.elapsed now then .valid else r.judgement now := by
  simp only [judgement_eq_timedOut_iff, validity, exceeds_iff]
  unfold judgement isTerminal
  change (if r.isStopped then _ else _) = _
  cases r.isStopped with
  | true => simp
  | false =>
    cases r.expired with
    | true => simp
    | false =>
      by_cases hdue : r.Overdue now
      · by_cases hshort : r.elapsed now < horizon
        · simp [hdue, hshort]
        · simp [hdue, hshort, Int.not_lt.1 hshort]
      · simp [hdue]

theorem validity_eq_timedOut_iff : r.validity now = .timedOut ↔
    r.isTerminal = false ∧ r.Overdue now ∧ r.elapsed now < horizon := by
  rw [validity_eq, ← and_assoc, ← judgement_eq_timedOut_iff]
  split
  · rename_i h
    simp [Int.not_lt.2 h.2]
  · rename_i h
    refine ⟨fun hj => ⟨hj, ?_⟩, fun hj => hj.1⟩
    exact Int.not_le.1 fun hlong => h ⟨hj, hlong⟩

/-- **The idle law.** The state of a session is stopped if it was stopped, else expired if it is marked so,
else timed out if it has a timeout that is less than the exact time since its last access, else valid;
but a session that would be timed out is valid once that time is `2 ^ 63` milliseconds or more. So what is
timed out stays so at every later reading short of that, and is valid again at every one from there on. -/
theorem idle_law (r : Record) (now : Timestamp) :
    r.validity now =
      (if r.judgement now = .timedOut ∧ horizon ≤ r.elapsed now then .valid else r.judgement now) ∧
    ∀ later, now ≤ later → r.validity now = .timedOut →
      r.validity later = if r.elapsed later < horizon then .timedOut else .valid := by
  refine ⟨validity_eq r now, fun later hle hnow => ?_⟩
  obtain ⟨hlive, hdue, _⟩ := validity_eq_timedOut_iff.1 hnow
  have hlater : r.judgement later = .timedOut :=
    judgement_mono hle (judgement_eq_timedOut_iff.2 ⟨hlive, hdue⟩)
  rw [validity_eq, hlater]
  split
  · rename_i hlong
    rw [if_neg (Int.not_lt.2 hlong.2)]
  · rename_i hshort
    rw [if_pos (Int.not_le.1 fun hlong => hshort ⟨rfl, hlong⟩)]

/-- A session with the longest timeout but one is timed out at one reading only. -/
theorem idle_law_at_horizon :
    ∃ r : Record, r = Record.new "s" 5 none 9223372036854775806 ∧
      r.judgement 9223372036854775812 = .timedOut ∧ r.elapsed 9223372036854775812 = horizon - 1 ∧
      r.validity 9223372036854775812 = .timedOut ∧ r.validity 18446744073709551615 = .valid := by
  let r := Record.new "s" 5 none 9223372036854775806
  have hdue : r.judgement 9223372036854775812 = .timedOut := by decide +kernel
  have hlast : r.elapsed 9223372036854775812 = horizon - 1 := by decide +kernel
  have hlong : ¬r.elapsed 18446744073709551615 < horizon := by decide +kernel
  obtain ⟨hnow, hlater⟩ := idle_law r 9223372036854775812
  have hshort : ¬(r.judgement 9223372036854775812 = .timedOut ∧
      horizon ≤ r.elapsed 9223372036854775812) := by
    intro h
    omega
  rw [if_neg hshort, hdue] at hnow
  have hvalid := hlater 18446744073709551615 (by decide) hnow
  rw [if_neg hlong] at hvalid
  exact ⟨r, rfl, hdue, hlast, hnow, hvalid⟩

/-- A session that times out at once turns valid again when it was left alone for long enough. -/
theorem timed_out_session_turns_valid :
    ∃ r : Record, r = Record.new "s" 0 none 0 ∧
      r.isTerminal = false ∧ r.Overdue 9223372036854775808 ∧
      r.validity 9223372036854775807 = .timedOut ∧ r.validity 9223372036854775808 = .valid ∧
      ¬∀ now, r.validity now = r.judgement now := by
  let r := Record.new "s" 0 none 0
  have hvalid : r.validity 9223372036854775808 = .valid := by decide +kernel
  have hdue : r.judgement 9223372036854775808 = .timedOut := by decide +kernel
  refine ⟨r, rfl, rfl, (judgement_eq_timedOut_iff.1 hdue).2, by decide +kernel, hvalid, ?_⟩
  intro hlaw
  have hsame := hlaw 9223372036854775808
  rw [hvalid, hdue] at hsame
  cases hsame

end Record
end Sessions
