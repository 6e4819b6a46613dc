import Sessions.Proofs.Record.Effect

/-!
# Sessions.Proofs.Record.Guard

What guards a record that ended. Every mutator asks whether the session ended before it does anything,
but for one: a value that comes without a key is refused before anybody looks at the session.

* `Record.Op.changed` and `Record.Op.reply` are what a mutator comes to where nothing is in its way.
* `Record.apply_eq_amend`: all mutators with a key to go by pass the same guard.
* `Record.mutators_pass_guard`: the outcome of every mutator, on every record.
* `Record.performAll_of_ended`: operations one after the other find an ended record as it was.
-/

namespace Sessions
namespace Record

namespace Op

/-- The operation is there to change the record. -/
def isMutator : Op → Bool
  | .touch _ | .setTimeout _ | .set .. | .remove .. | .stop _ | .expire => true
  | .check _ | .isValid _ | .validate _ | .get _ | .keys | .attributeCount | .terminal => false

/-- There is a value to write, and no key to write it under. -/
def isKeyless : Op → Bool
  | .set key value _ => key = [] && value ≠ .absent
  | _ => false

/-- The record behind a mutator that goes through. -/
def changed (r : Record) : Op → Record
  | .touch now => r.advance now
  | .setTimeout limit => { r with timeout := limit }
  | .set key value now =>
    if value = .absent then r.without key now
    else { r with attributes := r.attributes.set key value }.advance now
  | .remove key now => r.without key now
  | .stop now => { r with stopTime := some now }.advance now
  | .expire => r.marked
  | .check _ | .isValid _ | .validate _ | .get _ | .keys | .attributeCount | .terminal => r

/-- The answer of a mutator that goes through. -/
def reply (r : Record) : Op → Answer
  | .remove key _ => .value (r.attributes.get? key)
  | _ => .done

end Op

variable {r : Record} {op : Op} {f : Fault}

/-! ## How a session ended -/

theorem endFault?_of_stopped {t : Timestamp} (h : r.stopTime = some t) :
    r.endFault? = some (.stopped r.id (.atTime t)) := by
  rw [endFault?, h]

theorem endFault?_of_expired (hstop : r.isStopped = false) (hexp : r.expired = true) :
    r.endFault? = some (.expired r.id .marked) := by
  have hnone : r.stopTime = none := by simpa [isStopped] using hstop
  simp [endFault?, hnone, hexp]

/-! ## One guard -/

/-- A mutator amends the record, unless it comes without a key. -/
theorem apply_eq_amend (hop : op.isMutator = true) (hkey : op.isKeyless = false) :
    r.apply op = (r.amend (op.changed r)).map fun r' => (op.reply r, r') := by
  cases op with
  | touch now => rfl
  | setTimeout limit => rfl
  | stop now => rfl
  | expire => rfl
  | remove key now =>
    simp only [apply, remove, Op.changed, Op.reply]
    cases r.amend (r.without key now) <;> rfl
  | set key value now =>
    by_cases hvalue : value = .absent
    · -- to write the explicit "no value" is to remove, and needs no key
      simp only [apply, set, hvalue, if_true, remove, Op.changed, Op.reply]
      cases r.amend (r.without key now) <;> rfl
    · have hne : key ≠ [] := by
        intro hnil
        simp [Op.isKeyless, hnil, hvalue] at hkey
      simp only [apply, set, hvalue, hne, if_false, Op.changed, Op.reply]
  | _ => cases hop

theorem perform_of_ended (hop : op.isMutator = true) (hkey : op.isKeyless = false)
    (hend : r.endFault? = some f) : r.perform op = (.error f, r) := by
  have hrefused : r.amend (op.changed r) = .error f := by rw [amend, hend]
  rw [perform, apply_eq_amend hop hkey, hrefused]
  rfl

theorem perform_of_live (hop : op.isMutator = true) (hkey : op.isKeyless = false)
    (hlive : r.isTerminal = false) : r.perform op = (.ok (op.reply r), op.changed r) := by
  rw [perform, apply_eq_amend hop hkey, amend_of_live hlive]
  rfl

/-- Without a key a value is refused, whatever became of the session. -/
theorem perform_of_keyless (h : op.isKeyless = true) :
    r.perform op = (.error (Fault.keyMalformed []), r) := by
  cases op with
  | set key value now =>
    simp only [Op.isKeyless, ne_eq, decide_not, Bool.and_eq_true, decide_eq_true_eq,
      Bool.not_eq_true', decide_eq_false_iff_not] at h
    obtain ⟨rfl, hvalue⟩ := h
    simp only [perform, apply, set, hvalue, if_false, if_true]
    rfl
  | _ => cases h

/-! ## After the end -/

/-- What is there to read changes nothing. -/
theorem perform_of_reader (h : op.isMutator = false) : (r.perform op).2 = r := by
  cases op with
  | validate now =>
    simp only [perform, apply]
    cases r.validate now <;> rfl
  | touch | setTimeout | set | remove | stop | expire => cases h
  | _ => rfl

theorem snd_perform_of_ended (hend : r.isTerminal = true) (op : Op) : (r.perform op).2 = r := by
  cases hop : op.isMutator with
  | false => exact perform_of_reader hop
  | true =>
    cases hkey : op.isKeyless with
    | true => rw [perform_of_keyless hkey]
    | false =>
      obtain ⟨f, hf⟩ := exists_endFault_of_terminal hend
      rw [perform_of_ended hop hkey hf]

/-- Whatever is tried on an ended record, one operation after the other, each is answered as if it were
the first. -/
theorem performAll_of_ended (hend : r.isTerminal = true) (ops : List Op) :
    r.performAll ops = (ops.map fun op => (r.perform op).1, r) := by
  induction ops with
  | nil => rfl
  | cons op ops ih => simp only [performAll, snd_perform_of_ended hend, ih, List.map_cons]

/-- **The guard.** A value without a key is refused on every record, which stays as it is. Every other
mutator is refused on a stopped record for the stop, on an expired one for the expiry, and the record stays
as it is; on a live one it goes through. And however many operations follow an end, the record stays as it
is and each of them is answered as if it were the first. -/
theorem mutators_pass_guard (r : Record) :
    (∀ op : Op, op.isMutator = true →
      (op.isKeyless = true → r.perform op = (.error (Fault.keyMalformed []), r)) ∧
      (op.isKeyless = false →
        (∀ t, r.stopTime = some t → r.perform op = (.error (.stopped r.id (.atTime t)), r)) ∧
        (r.isStopped = false → r.expired = true →
          r.perform op = (.error (.expired r.id .marked), r)) ∧
        (r.isTerminal = false → r.perform op = (.ok (op.reply r), op.changed r)))) ∧
    (r.isTerminal = true → ∀ ops, r.performAll ops = (ops.map fun op => (r.perform op).1, r)) := by
  refine ⟨fun op hop => ⟨fun hkey => perform_of_keyless hkey, fun hkey => ⟨?_, ?_, ?_⟩⟩,
    performAll_of_ended⟩
  · intro t ht
    exact perform_of_ended hop hkey (endFault?_of_stopped ht)
  · intro hstop hexp
    exact perform_of_ended hop hkey (endFault?_of_expired hstop hexp)
  · intro hlive
    exact perform_of_live hop hkey hlive

/-- A session is stopped; every kind of mutator is tried on it, the removal of no key among them. -/
theorem mutators_pass_guard_of_stopped_session :
    ∃ r : Record, (Record.new "s" 1000 none 1800000).stop 5000 = .ok r ∧
      (r.performAll [.touch 6000, .set [] .absent 6000, .set [] (.bool true) 6000, .stop 6000,
          .expire]) =
        ([.error (.stopped "s" (.atTime 5000)), .error (.stopped "s" (.atTime 5000)),
          .error (Fault.keyMalformed []), .error (.stopped "s" (.atTime 5000)),
          .error (.stopped "s" (.atTime 5000))], r) := by
  let r := { Record.new "s" 1000 none 1800000 with stopTime := some 5000 }.advance 5000
  obtain ⟨hmutator, hrun⟩ := mutators_pass_guard r
  have hstopped : ∀ op : Op, op.isMutator = true → op.isKeyless = false →
      (r.perform op).1 = .error (.stopped "s" (.atTime 5000)) := by
    intro op hop hkey
    rw [((hmutator op hop).2 hkey).1 5000 rfl]
    rfl
  have hkeyless := (hmutator (.set [] (.bool true) 6000) rfl).1 rfl
  refine ⟨r, stop_of_live rfl, ?_⟩
  rw [hrun rfl]
  simp only [List.map_cons, List.map_nil, hkeyless]
  rw [hstopped _ rfl rfl, hstopped _ rfl rfl, hstopped _ rfl rfl, hstopped _ rfl rfl]

/-- To write a value under no key fails for the key, on a session that was stopped. -/
theorem keyless_write_hides_stop :
    ∃ r : Record, (Record.new "s" 1000 none 1800000).stop 5000 = .ok r ∧ r.isStopped = true ∧
      (r.perform (.set [] (.bool true) 6000)).1 = .error (Fault.keyMalformed []) ∧
      ¬∃ how, (r.perform (.set [] (.bool true) 6000)).1 = .error (.stopped r.id how) := by
  let r := { Record.new "s" 1000 none 1800000 with stopTime := some 5000 }.advance 5000
  have hfault : (r.perform (.set [] (.bool true) 6000)).1 = .error (Fault.keyMalformed []) := rfl
  refine ⟨r, stop_of_live rfl, rfl, hfault, ?_⟩
  rintro ⟨how, hhow⟩
  rw [hfault] at hhow
  cases hhow

end Record
end Sessions
