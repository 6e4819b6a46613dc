import Sessions.Call
import Sessions.Proofs.Record.Life

/-!
# Sessions.Proofs.Record.Effect

What the operations by id come to on a record, apart from how the record is got hold of and where it
is written to.

* `Call.effect`: the answer and, if the operation changes it, the changed record. `Call.written` and
  `Call.outcome` are read off it.
* `Call.outcome_eq_error`: the one thing that can go wrong on a live record.
* `Call.mutator?`: the operations that change a record are named for its mutators, and
  `Call.effect_of_mutator` says what they come to.
* `Call.outcome_new`: the operations on a session that has just begun.
-/

namespace Sessions

theorem Timestamp.max_self (a : Timestamp) : max a a = a := by
  change (if a ≤ a then a else a) = a
  exact ite_self a

namespace Record

variable {r : Record} {now : Timestamp}

theorem amend_of_live (h : r.isTerminal = false) (changed : Record) :
    r.amend changed = .ok changed :=
  amend_eq_ok_iff.2 ⟨h, rfl⟩

theorem touch_of_live (h : r.isTerminal = false) : r.touch now = .ok (r.advance now) :=
  amend_of_live h _

theorem setTimeout_of_live (h : r.isTerminal = false) (limit : Millis) :
    r.setTimeout limit = .ok { r with timeout := limit } :=
  amend_of_live h _

theorem stop_of_live (h : r.isTerminal = false) :
    r.stop now = .ok ({ r with stopTime := some now }.advance now) :=
  amend_of_live h _

theorem remove_of_live (h : r.isTerminal = false) (key : Text) :
    r.remove key now = .ok (r.attributes.get? key, r.without key now) := by
  rw [remove, amend_of_live h]
  rfl

theorem set_of_live (h : r.isTerminal = false) {key : Text} {value : Value} (hvalue : value ≠ .absent)
    (hkey : key ≠ []) : r.set key value now =
      .ok ({ r with attributes := r.attributes.set key value }.advance now) := by
  rw [set, if_neg hvalue, if_neg hkey, amend_of_live h]

theorem remove_eq_ok {key : Text} {v : Option Value} {r' : Record}
    (h : r.remove key now = .ok (v, r')) : v = r.attributes.get? key ∧ r' = r.without key now := by
  rw [remove] at h
  cases hamend : r.amend (r.without key now) with
  | error f =>
    rw [hamend] at h
    cases h
  | ok changed =>
    rw [hamend] at h
    cases h
    exact ⟨rfl, (amend_eq_ok_iff.1 hamend).2.symm⟩

theorem without_of_none {key : Text} (h : r.attributes.get? key = none) : r.without key now = r := by
  rw [without, Attributes.erase, h]
  rfl

/-- A use at the time of the last one leaves no trace. -/
theorem advance_of_lastAccess (h : r.lastAccess = now) : r.advance now = r := by
  rw [advance, ← h, Timestamp.max_self]

/-- A session is valid at the time at which it begins, whatever its timeout. -/
theorem validity_new (id : Id) (host : Option Text) (limit : Millis) :
    (Record.new id now host limit).validity now = .valid := by
  have hnow : ¬(now < now) := UInt64.lt_irrefl now
  simp [validity, new, hnow]

end Record

namespace Call

/-- What an operation comes to on a record: its answer, and the changed record if there is anything to
write. -/
def effect : (c : Call) → Record → Timestamp → Except Fault (c.Result × Option Record)
  | .getStart, r, _ => .ok (r.start, none)
  | .getLastAccess, r, _ => .ok (r.lastAccess, none)
  | .getHost, r, _ => .ok (r.host, none)
  | .getTimeout, r, _ => .ok (r.timeout, none)
  | .setTimeout limit, r, _ => (r.setTimeout limit).map fun r' => ((), some r')
  | .touch, r, now => (r.touch now).map fun r' => ((), some r')
  | .stop, r, now => (r.stop now).map fun r' => ((), some r')
  | .keys, r, _ => .ok (r.attributes.keys, none)
  | .get key, r, _ => .ok (r.attributes.get? key, none)
  | .set key value, r, now =>
    if value = .absent then
      (r.remove key now).map fun (v, r') => ((), if v.isSome then some r' else none)
    else (r.set key value now).map fun r' => ((), some r')
  | .remove key, r, now =>
    (r.remove key now).map fun (v, r') => (v, if v.isSome then some r' else none)
  | .checkValid, _, _ => .ok ((), none)

variable {c : Call} {r r' : Record} {now : Timestamp} {f : Fault}

/-- The changed record of an operation that goes through. -/
def written (c : Call) (r : Record) (now : Timestamp) : Option Record :=
  match c.effect r now with
  | .ok (_, changed) => changed
  | .error _ => none

/-- What the caller gets, and the record behind the operation. -/
def outcome (c : Call) (r : Record) (now : Timestamp) : Except Fault c.Result × Record :=
  ((c.effect r now).map (·.1), (c.written r now).getD r)

theorem written_eq_some (h : c.written r now = some r') : ∃ a, c.effect r now = .ok (a, some r') := by
  unfold written at h
  split at h
  · rename_i a changed heffect
    exact ⟨a, by rw [heffect, h]⟩
  · cases h

theorem evolves_of_removal {α : Type} {key : Text} (answer : Option Value → α) {a : α}
    (h : ((r.remove key now).map fun (v, r') => (answer v, if v.isSome then some r' else none)) =
      .ok (a, some r')) : r.Evolves r' := by
  cases hremove : r.remove key now with
  | error f =>
    rw [hremove] at h
    cases h
  | ok p =>
    rw [hremove, Except.map, Except.ok.injEq, Prod.mk.injEq] at h
    obtain ⟨_, hwritten⟩ := Option.ite_none_right_eq_some.1 h.2
    cases hwritten
    exact (Record.Amends.of_remove hremove).evolves

/-- What is written is a later form of the record. -/
theorem evolves_of_written (h : c.written r now = some r') : r.Evolves r' := by
  obtain ⟨a, heffect⟩ := written_eq_some h
  cases c with
  | setTimeout limit =>
    rw [effect] at heffect
    cases hset : r.setTimeout limit <;> rw [hset] at heffect <;> cases heffect
    exact (Record.Amends.of_setTimeout hset).evolves
  | touch =>
    rw [effect] at heffect
    cases htouch : r.touch now <;> rw [htouch] at heffect <;> cases heffect
    exact (Record.Amends.of_touch htouch).evolves
  | stop =>
    rw [effect] at heffect
    cases hstop : r.stop now <;> rw [hstop] at heffect <;> cases heffect
    exact Record.evolves_of_stop hstop
  | remove key => exact evolves_of_removal (fun v => v) heffect
  | set key value =>
    rw [effect] at heffect
    split at heffect
    · exact evolves_of_removal (fun _ => ()) heffect
    · cases hset : r.set key value now <;> rw [hset] at heffect <;> cases heffect
      exact (Record.Amends.of_set hset).evolves
  | _ => cases heffect

/-- Writing the explicit "no value" is a removal without its answer. -/
theorem effect_erasure (key : Text) (r : Record) (now : Timestamp) :
    (set key .absent).effect r now = ((remove key).effect r now).map fun p => ((), p.2) := by
  rw [effect, if_pos rfl, effect]
  cases r.remove key now <;> rfl

theorem written_erasure (key : Text) (r : Record) (now : Timestamp) :
    (set key .absent).written r now = (remove key).written r now := by
  rw [written, effect_erasure, written]
  cases (remove key).effect r now <;> rfl

/-- On a live record only one thing goes wrong: writing a value without a key. -/
theorem effect_eq_error (hlive : r.isTerminal = false) (h : c.effect r now = .error f) :
    f = Fault.keyMalformed [] ∧ ∃ value, value ≠ .absent ∧ c = .set [] value := by
  cases c with
  | setTimeout limit =>
    rw [effect, Record.setTimeout_of_live hlive] at h
    cases h
  | touch =>
    rw [effect, Record.touch_of_live hlive] at h
    cases h
  | stop =>
    rw [effect, Record.stop_of_live hlive] at h
    cases h
  | remove key =>
    rw [effect, Record.remove_of_live hlive] at h
    cases h
  | set key value =>
    rw [effect, Record.remove_of_live hlive] at h
    split at h
    · cases h
    · rename_i hvalue
      by_cases hkey : key = []
      · subst hkey
        rw [Record.set, if_neg hvalue, if_pos rfl] at h
        cases h
        exact ⟨rfl, value, hvalue, rfl⟩
      · rw [Record.set_of_live hlive hvalue hkey] at h
        cases h
  | _ => cases h

theorem outcome_eq_error (hlive : r.isTerminal = false) (h : (c.outcome r now).1 = .error f) :
    f = Fault.keyMalformed [] ∧ ∃ value, value ≠ .absent ∧ c = .set [] value := by
  refine effect_eq_error hlive (?_ : c.effect r now = .error f)
  rw [outcome] at h
  cases heffect : c.effect r now with
  | ok p =>
    rw [heffect] at h
    cases h
  | error g =>
    rw [heffect] at h
    cases h
    rfl

/-- The mutator of a record that has the name of an operation. -/
def mutator? : (c : Call) → Option (Record → Timestamp → Except Fault (c.Result × Record))
  | .setTimeout limit => some fun r _ => (r.setTimeout limit).map ((), ·)
  | .touch => some fun r now => (r.touch now).map ((), ·)
  | .stop => some fun r now => (r.stop now).map ((), ·)
  | .set key value => some fun r now => (r.set key value now).map ((), ·)
  | .remove key => some fun r now => r.remove key now
  | _ => none

/-- The operation removes an attribute, in one way or the other, that the record does not have. -/
def Idle : Call → Record → Prop
  | .remove key, r => r.attributes.get? key = none
  | .set key value, r => value = .absent ∧ r.attributes.get? key = none
  | _, _ => False

instance : (c : Call) → (r : Record) → Decidable (c.Idle r)
  | .remove key, r => inferInstanceAs (Decidable (r.attributes.get? key = none))
  | .set key value, r =>
    inferInstanceAs (Decidable (value = .absent ∧ r.attributes.get? key = none))
  | .getStart, _ | .getLastAccess, _ | .getHost, _ | .getTimeout, _ | .setTimeout _, _ | .touch, _
  | .stop, _ | .keys, _ | .get _, _ | .checkValid, _ => .isFalse id

/-- A removal that finds nothing is not written, everything else is. -/
theorem effect_of_mutator {change : Record → Timestamp → Except Fault (c.Result × Record)}
    (h : c.mutator? = some change) :
    c.effect r now = (change r now).map fun p => (p.1, if c.Idle r then none else some p.2) := by
  have hwritten : ∀ (key : Text) (r' : Record),
      (if (r.attributes.get? key).isSome = true then some r' else none) =
        if r.attributes.get? key = none then none else some r' := by
    intro key r'
    cases r.attributes.get? key <;> rfl
  cases c with
  | setTimeout limit =>
    cases h
    simp only [effect, Idle]
    cases r.setTimeout limit <;> rfl
  | touch =>
    cases h
    simp only [effect, Idle]
    cases r.touch now <;> rfl
  | stop =>
    cases h
    simp only [effect, Idle]
    cases r.stop now <;> rfl
  | remove key =>
    cases h
    simp only [effect, Idle]
    cases hremove : r.remove key now with
    | error f => rfl
    | ok p =>
      obtain ⟨v, r'⟩ := p
      obtain ⟨rfl, _⟩ := Record.remove_eq_ok hremove
      simp only [Except.map, hwritten]
      rfl
  | set key value =>
    cases h
    simp only [effect, Idle]
    by_cases hvalue : value = .absent
    · rw [Record.set]
      simp only [hvalue, if_true, true_and]
      cases hremove : r.remove key now with
      | error f => rfl
      | ok p =>
        obtain ⟨v, r'⟩ := p
        obtain ⟨rfl, _⟩ := Record.remove_eq_ok hremove
        simp only [Except.map, hwritten]
    · simp only [hvalue, false_and, if_false]
      cases r.set key value now <;> rfl
  | _ => cases h

/-- A removal that finds nothing leaves the record as it is. -/
theorem eq_of_idle {change : Record → Timestamp → Except Fault (c.Result × Record)} {a : c.Result}
    (h : c.mutator? = some change) (hidle : c.Idle r) (hchange : change r now = .ok (a, r')) :
    r' = r := by
  cases c with
  | remove key =>
    cases h
    exact (Record.remove_eq_ok hchange).2.trans (Record.without_of_none hidle)
  | set key value =>
    cases h
    obtain ⟨rfl, hnone⟩ := hidle
    have hset : r.set key .absent now = (r.remove key now).map (·.2) := by rw [Record.set, if_pos rfl]
    simp only [hset] at hchange
    cases hremove : r.remove key now with
    | error f =>
      rw [hremove] at hchange
      cases hchange
    | ok p =>
      rw [hremove] at hchange
      cases hchange
      exact (Record.remove_eq_ok hremove).2.trans (Record.without_of_none hnone)
  | _ => exact hidle.elim

/-- The operations on a session that has just begun: nothing was written to it, and it was used when it
began. -/
def onFresh : (c : Call) → Record → Timestamp → Except Fault c.Result × Record
  | .getStart, r, _ => (.ok r.start, r)
  | .getLastAccess, r, _ => (.ok r.start, r)
  | .getHost, r, _ => (.ok r.host, r)
  | .getTimeout, r, _ => (.ok r.timeout, r)
  | .setTimeout limit, r, _ => (.ok (), { r with timeout := limit })
  | .touch, r, _ => (.ok (), r)
  | .stop, r, now => (.ok (), { r with stopTime := some now })
  | .keys, r, _ => (.ok [], r)
  | .get _, r, _ => (.ok none, r)
  | .set key value, r, _ =>
    if value = .absent then (.ok (), r)
    else if key = [] then (.error (Fault.keyMalformed []), r)
    else (.ok (), { r with attributes := Attributes.empty.set key value })
  | .remove _, r, _ => (.ok none, r)
  | .checkValid, r, _ => (.ok (), r)

theorem outcome_new (c : Call) (id : Id) (now : Timestamp) (host : Option Text) (limit : Millis) :
    c.outcome (Record.new id now host limit) now = c.onFresh (Record.new id now host limit) now := by
  have hlive : (Record.new id now host limit).isTerminal = false := rfl
  -- what is written advances the last use, which is `now` as it is
  cases c with
  | setTimeout limit' =>
    rw [outcome, written, effect, Record.setTimeout_of_live hlive]
    rfl
  | touch =>
    rw [outcome, written, effect, Record.touch_of_live hlive, Record.advance_of_lastAccess] <;> rfl
  | stop =>
    rw [outcome, written, effect, Record.stop_of_live hlive, Record.advance_of_lastAccess] <;> rfl
  | remove key =>
    rw [outcome, written, effect, Record.remove_of_live hlive]
    rfl
  | set key value =>
    by_cases hvalue : value = .absent
    · rw [outcome, written, effect, if_pos hvalue, Record.remove_of_live hlive, onFresh, if_pos hvalue]
      rfl
    · rw [outcome, written, effect, if_neg hvalue, onFresh, if_neg hvalue]
      by_cases hkey : key = []
      · rw [Record.set, if_neg hvalue, if_pos hkey, if_pos hkey, hkey]
        rfl
      · rw [Record.set_of_live hlive hvalue hkey, if_neg hkey, Record.advance_of_lastAccess] <;> rfl
  | _ => rfl

theorem onFresh_eq_error (h : (c.onFresh r now).1 = .error f) :
    f = Fault.keyMalformed [] ∧ ∃ value, value ≠ .absent ∧ c = .set [] value := by
  cases c with
  | set key value =>
    rw [onFresh] at h
    by_cases hvalue : value = .absent
    · rw [if_pos hvalue] at h
      cases h
    · rw [if_neg hvalue] at h
      by_cases hkey : key = []
      · rw [if_pos hkey] at h
        cases h
        exact ⟨rfl, value, hvalue, by rw [hkey]⟩
      · rw [if_neg hkey] at h
        cases h
  | _ => cases h

end Call
end Sessions
