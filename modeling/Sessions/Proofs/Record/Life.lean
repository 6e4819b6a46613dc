import Sessions.Record

/-!
# Sessions.Proofs.Record.Life

What can happen to one record. A live record is amended, stopped or marked expired; an ended one is
never changed again.

* `Sound` is what holds of every record that came into being and was changed by operations only.
* `Evolves r r'` says that `r'` may be a later form of `r`: who it is stays, its last access does not
  move back, and nothing changes once it ended.
* `Amends r r'` says that a live record was changed and stays alive; touching, setting the timeout,
  writing and removing attributes do no more than that.
* `Amends.evolves`, `evolves_of_stop`, `evolves_of_expire` lead to later forms, and the lemmas on
  `Sound` beside them say that these are sound again.
-/

namespace Sessions

theorem Timestamp.le_max_left (a b : Timestamp) : a ≤ max a b := by
  change a ≤ if a ≤ b then b else a
  split
  · assumption
  · exact UInt64.le_refl a

theorem Timestamp.le_max_right (a b : Timestamp) : b ≤ max a b := by
  change b ≤ if a ≤ b then b else a
  split
  · exact UInt64.le_refl b
  · rename_i h
    exact (UInt64.le_total a b).resolve_left h

/-! ## Entries of attributes -/

namespace Entries

theorem eq_or_mem_of_mem_set {k : Text} {v : Value} {es : List Entry} {e : Entry}
    (h : e ∈ set k v es) : e = (k, v) ∨ e ∈ es := by
  induction es with
  | nil => exact Or.inl (List.mem_singleton.1 h)
  | cons f es ih =>
    simp only [set] at h
    split at h
    · exact List.mem_cons.1 h
    · split at h
      · rcases List.mem_cons.1 h with he | he
        · exact Or.inl he
        · exact Or.inr (List.mem_cons_of_mem f he)
      · rcases List.mem_cons.1 h with he | he
        · exact Or.inr (he ▸ List.mem_cons_self)
        · exact (ih he).imp_right (List.mem_cons_of_mem f)

end Entries

/-- An attribute has a key, and a value that is not the explicit "no value". -/
def Attributes.Proper (a : Attributes) : Prop := ∀ e ∈ a.entries, e.1 ≠ [] ∧ e.2 ≠ .absent

namespace Attributes

theorem proper_empty : empty.Proper := fun _ h => absurd h List.not_mem_nil

theorem Proper.set {a : Attributes} {k : Text} {v : Value} (h : a.Proper) (hk : k ≠ [])
    (hv : v ≠ .absent) : (a.set k v).Proper := by
  intro e he
  rcases Entries.eq_or_mem_of_mem_set he with rfl | he
  · exact ⟨hk, hv⟩
  · exact h e he

theorem Proper.erase {a : Attributes} {k : Text} (h : a.Proper) : (a.erase k).2.Proper :=
  fun e he => h e (List.mem_filter.1 he).1

end Attributes

namespace Record

/-- What holds of every record: it was not used before it began, it did not end in both ways, a stop
counts as a use, and its attributes are proper. -/
structure Sound (r : Record) : Prop where
  start_le : r.start ≤ r.lastAccess
  ends_once : ¬(r.isStopped = true ∧ r.expired = true)
  stop_le : ∀ t, r.stopTime = some t → t ≤ r.lastAccess
  attributes : r.attributes.Proper

/-- The second record may be a later form of the first. -/
structure Evolves (r r' : Record) : Prop where
  id : r'.id = r.id
  start : r'.start = r.start
  host : r'.host = r.host
  lastAccess : r.lastAccess ≤ r'.lastAccess
  ended : r.isTerminal = true → r' = r

namespace Evolves

theorem refl (r : Record) : r.Evolves r := ⟨rfl, rfl, rfl, UInt64.le_refl _, fun _ => rfl⟩

theorem trans {a b c : Record} (h : a.Evolves b) (h' : b.Evolves c) : a.Evolves c := by
  refine ⟨h'.id.trans h.id, h'.start.trans h.start, h'.host.trans h.host,
    UInt64.le_trans h.lastAccess h'.lastAccess, fun hend => ?_⟩
  have hb : b = a := h.ended hend
  rw [h'.ended (hb ▸ hend), hb]

end Evolves

theorem sound_new (id : Id) (start : Timestamp) (host : Option Text) (timeout : Millis) :
    (Record.new id start host timeout).Sound :=
  ⟨UInt64.le_refl _, by simp [new], by simp [new], Attributes.proper_empty⟩

/-! ## Live and ended -/

theorem isTerminal_eq_false_iff {r : Record} :
    r.isTerminal = false ↔ r.stopTime = none ∧ r.expired = false := by
  simp [isTerminal, isStopped]

theorem endFault?_eq_none_iff {r : Record} : r.endFault? = none ↔ r.isTerminal = false := by
  rw [isTerminal_eq_false_iff]
  unfold endFault?
  cases r.stopTime <;> cases r.expired <;> simp

theorem exists_endFault_of_terminal {r : Record} (h : r.isTerminal = true) :
    ∃ why, r.endFault? = some why := by
  rw [← Option.ne_none_iff_exists', Ne, endFault?_eq_none_iff, h]
  simp

theorem isTerminal_of_validity {r : Record} {now : Timestamp}
    (h : r.validity now = .valid ∨ r.validity now = .timedOut) : r.isTerminal = false := by
  rw [isTerminal_eq_false_iff]
  unfold validity at h
  cases hs : r.stopTime <;> cases hx : r.expired <;> simp_all

/-- A record that is neither valid nor timed out has ended, for a reason. -/
theorem exists_endFault {r : Record} {now : Timestamp}
    (h : r.validity now = .stopped ∨ r.validity now = .expired) :
    ∃ why, r.endFault? = some why := by
  unfold validity at h
  unfold endFault?
  cases hs : r.stopTime <;> cases hx : r.expired <;> simp_all
  split at h <;> simp at h

/-- A record is found unusable only for having been stopped or for having expired. -/
theorem validate_eq_error {r : Record} {now : Timestamp} {why : Fault}
    (h : r.validate now = .error why) :
    (∃ how, why = .stopped r.id how) ∨ ∃ cause, why = .expired r.id cause := by
  have hend : ∀ f, r.endFault? = some f →
      (∃ how, f = .stopped r.id how) ∨ ∃ cause, f = .expired r.id cause := by
    intro f hf
    unfold endFault? at hf
    split at hf
    · cases hf
      exact .inl ⟨_, rfl⟩
    · split at hf <;> cases hf
      exact .inr ⟨_, rfl⟩
  unfold validate at h
  split at h
  · cases h
  · cases h
    exact .inr ⟨_, rfl⟩
  all_goals
    split at h
    · rename_i f hf
      cases h
      exact hend _ hf
    · cases h

/-- A mutation goes through on live records only, and then gives what it was to give. -/
theorem amend_eq_ok_iff {r changed r' : Record} :
    r.amend changed = .ok r' ↔ r.isTerminal = false ∧ changed = r' := by
  rw [← endFault?_eq_none_iff]
  unfold amend
  cases r.endFault? <;> simp

/-! ## Amendments -/

/-- A live record was changed and stays alive. -/
structure Amends (r r' : Record) : Prop where
  live : r.isTerminal = false
  live' : r'.isTerminal = false
  id : r'.id = r.id
  start : r'.start = r.start
  host : r'.host = r.host
  lastAccess : r.lastAccess ≤ r'.lastAccess
  attributes : r.attributes.Proper → r'.attributes.Proper

namespace Amends

variable {r r' : Record}

theorem evolves (h : r.Amends r') : r.Evolves r' :=
  ⟨h.id, h.start, h.host, h.lastAccess, fun hend => absurd (h.live.symm.trans hend) (by simp)⟩

theorem sound (h : r.Amends r') (hr : r.Sound) : r'.Sound := by
  obtain ⟨hstop, hexp⟩ := isTerminal_eq_false_iff.1 h.live'
  refine ⟨?_, by simp [hexp], by simp [hstop], h.attributes hr.attributes⟩
  rw [h.start]
  exact UInt64.le_trans hr.start_le h.lastAccess

theorem of_touch {now : Timestamp} (h : r.touch now = .ok r') : r.Amends r' := by
  obtain ⟨hlive, rfl⟩ := amend_eq_ok_iff.1 h
  exact ⟨hlive, hlive, rfl, rfl, rfl, Timestamp.le_max_left _ _, fun h => h⟩

theorem of_setTimeout {limit : Millis} (h : r.setTimeout limit = .ok r') : r.Amends r' := by
  obtain ⟨hlive, rfl⟩ := amend_eq_ok_iff.1 h
  exact ⟨hlive, hlive, rfl, rfl, rfl, UInt64.le_refl _, fun h => h⟩

theorem of_remove {key : Text} {now : Timestamp} {v : Option Value}
    (h : r.remove key now = .ok (v, r')) : r.Amends r' := by
  unfold remove at h
  cases ha : r.amend (r.without key now) with
  | error f => rw [ha] at h; cases h
  | ok changed =>
    rw [ha] at h
    cases h
    obtain ⟨hlive, rfl⟩ := amend_eq_ok_iff.1 ha
    simp only [without]
    split
    · exact ⟨hlive, hlive, rfl, rfl, rfl, Timestamp.le_max_left _ _, Attributes.Proper.erase⟩
    · exact ⟨hlive, hlive, rfl, rfl, rfl, UInt64.le_refl _, fun h => h⟩

theorem of_set {key : Text} {value : Value} {now : Timestamp}
    (h : r.set key value now = .ok r') : r.Amends r' := by
  unfold set at h
  split at h
  · cases hr : r.remove key now with
    | error f => rw [hr] at h; cases h
    | ok p =>
      rw [hr] at h
      cases h
      exact of_remove hr
  · rename_i hvalue
    split at h
    · cases h
    · rename_i hkey
      obtain ⟨hlive, rfl⟩ := amend_eq_ok_iff.1 h
      exact ⟨hlive, hlive, rfl, rfl, rfl, Timestamp.le_max_left _ _,
        fun hp => hp.set hkey hvalue⟩

end Amends

/-! ## Ends -/

theorem stop_eq_ok_iff {r r' : Record} {now : Timestamp} : r.stop now = .ok r' ↔
    r.isTerminal = false ∧ { r with stopTime := some now, lastAccess := max r.lastAccess now } = r' :=
  amend_eq_ok_iff

/-- The record with the mark of an expired session. -/
def marked (r : Record) : Record := { r with expired := true }

theorem marked_id (r : Record) : r.marked.id = r.id := rfl

theorem marked_isTerminal (r : Record) : r.marked.isTerminal = true := by
  simp [isTerminal, marked]

theorem expire_eq_ok_iff {r r' : Record} :
    r.expire = .ok r' ↔ r.isTerminal = false ∧ r.marked = r' :=
  amend_eq_ok_iff

theorem expire_of_timedOut {r : Record} {now : Timestamp} (h : r.validity now = .timedOut) :
    r.expire = .ok r.marked :=
  expire_eq_ok_iff.2 ⟨isTerminal_of_validity (Or.inr h), rfl⟩

theorem validity_marked {r : Record} (hlive : r.isTerminal = false) (now : Timestamp) :
    r.marked.validity now = .expired := by
  simp [validity, marked, (isTerminal_eq_false_iff.1 hlive).1]

theorem evolves_of_stop {r r' : Record} {now : Timestamp} (h : r.stop now = .ok r') :
    r.Evolves r' := by
  obtain ⟨hlive, rfl⟩ := stop_eq_ok_iff.1 h
  exact ⟨rfl, rfl, rfl, Timestamp.le_max_left _ _, by simp [hlive]⟩

theorem evolves_of_expire {r r' : Record} (h : r.expire = .ok r') : r.Evolves r' := by
  obtain ⟨hlive, rfl⟩ := expire_eq_ok_iff.1 h
  exact ⟨rfl, rfl, rfl, UInt64.le_refl _, by simp [hlive]⟩

theorem Sound.stop {r r' : Record} {now : Timestamp} (hr : r.Sound) (h : r.stop now = .ok r') :
    r'.Sound := by
  obtain ⟨hlive, rfl⟩ := stop_eq_ok_iff.1 h
  refine ⟨UInt64.le_trans hr.start_le (Timestamp.le_max_left _ _), ?_, ?_, hr.attributes⟩
  · simp [(isTerminal_eq_false_iff.1 hlive).2]
  · intro t ht
    cases ht
    exact Timestamp.le_max_right _ _

theorem Sound.expire {r r' : Record} (hr : r.Sound) (h : r.expire = .ok r') : r'.Sound := by
  obtain ⟨hlive, rfl⟩ := expire_eq_ok_iff.1 h
  have hstop : r.marked.stopTime = none := (isTerminal_eq_false_iff.1 hlive).1
  exact ⟨hr.start_le, by simp [isStopped, hstop], by simp [hstop], hr.attributes⟩

end Record
end Sessions
