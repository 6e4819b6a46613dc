import Sessions.Manager
import Sessions.Proofs.Record.Mapping

/-!
# Sessions.Proofs.Manager.Conserving

Programs that write back the attributes they have read. Beginning, ending and looking up sessions leave the
attributes of every session as they are: what is written over a record is that record as it was read a moment
before, with nothing in between that could have changed it in the store.

* `Conserving before p` says this of a program, where `before` is what was read so far.
* `conserving_start`, `conserving_getSession`, `conserving_stop`, `conserving_sweep`: all programs but the
  writing of attributes.
-/

namespace Sessions
namespace Manager

variable {α β : Type} {before : Option Record} {p : Op α}

/-- The record that was read last, as long as nobody had occasion to change it. -/
def Question.seen (before : Option Record) : (q : Question) → Reply q → Option Record
  | .read _, .ok found => found
  | .read _, .error _ => none
  | .create _, _ | .update _, _ | .announce .., _ | .live, _ => none
  | _, _ => before

/-- What is written over a record has its attributes. -/
def Question.Conserves (before : Option Record) : Question → Prop
  | .update r => ∃ v, before = some v ∧ v.id = r.id ∧ r.mapping = v.mapping
  | _ => True

def Conserving : Option Record → Op α → Prop
  | _, .done _ => True
  | before, .ask q next => q.Conserves before ∧ ∀ a, Conserving (q.seen before a) (next a)

namespace Conserving

theorem of_none (h : Conserving none p) : Conserving before p := by
  induction p generalizing before with
  | done r => trivial
  | ask q next ih =>
    cases q with
    | update r =>
      obtain ⟨v, hv, _⟩ := h.1
      cases hv
    | read id =>
      refine ⟨trivial, fun a => ?_⟩
      cases a with
      | ok found => exact h.2 (.ok found)
      | error f => exact h.2 (.error f)
    | create r => exact h
    | announce ev r => exact h
    | live => exact h
    | _ => exact ⟨trivial, fun a => ih a (h.2 a)⟩

theorem bind {f : α → Op β} (hp : Conserving before p) (hf : ∀ a, Conserving none (f a)) :
    Conserving before (p >>= f) := by
  change Conserving before (p.bind f)
  induction p generalizing before with
  | done r =>
    cases r with
    | ok a => exact (hf a).of_none
    | error e => trivial
  | ask q next ih => exact ⟨hp.1, fun a => ih a (hp.2 a)⟩

theorem attempt (hp : Conserving before p) : Conserving before p.attempt := by
  induction p generalizing before with
  | done r => trivial
  | ask q next ih => exact ⟨hp.1, fun a => ih a (hp.2 a)⟩

theorem pure (a : α) : Conserving before (Pure.pure a : Op α) := trivial

theorem fail (f : Fault) : Conserving before (Program.fail f : Op α) := trivial

theorem ofExcept (r : Except Fault α) : Conserving before (Program.ofExcept r : Op α) := trivial

theorem locked (hp : Conserving before p) : Conserving before (locked p) := by
  refine ⟨trivial, fun _ => ?_⟩
  exact hp.attempt.bind fun r => ⟨trivial, fun _ => .ofExcept r⟩

/-- A fault of the change ends the program. -/
theorem ofExcept_bind {r : Except Fault α} {f : α → Op β}
    (hf : ∀ a, r = .ok a → Conserving before (f a)) :
    Conserving before (Program.ofExcept r >>= f) := by
  cases r with
  | ok a => exact hf a rfl
  | error e => trivial

theorem read_bind {id : Id} {f : Option Record → Op β} (hf : ∀ found, Conserving found (f found)) :
    Conserving before (read id >>= f) := by
  refine ⟨trivial, fun a => ?_⟩
  cases a with
  | ok found => exact hf found
  | error e => trivial

/-- A look at the clock is no occasion to change anything. -/
theorem clock_bind {f : Timestamp → Op β} (hf : ∀ now, Conserving before (f now)) :
    Conserving before (Manager.clock >>= f) := ⟨trivial, hf⟩

theorem clock : Conserving before clock := ⟨trivial, fun _ => trivial⟩

theorem mint : Conserving before mint := ⟨trivial, fun _ => trivial⟩

theorem log (level : Level) (message : Text) : Conserving before (log level message) :=
  ⟨trivial, fun _ => trivial⟩

theorem count (c : Counter) : Conserving before (count c) := ⟨trivial, fun _ => trivial⟩

theorem announce (ev : Event) (r : Record) : Conserving before (announce ev r) :=
  ⟨trivial, fun _ => trivial⟩

theorem autoCreate : Conserving before autoCreate := ⟨trivial, fun _ => trivial⟩

theorem timeout : Conserving before timeout := ⟨trivial, fun _ => trivial⟩

theorem allow (host : Option Text) : Conserving before (allow host) := ⟨trivial, fun _ => trivial⟩

theorem create (r : Record) : Conserving before (create r) := ⟨trivial, fun _ => trivial⟩

theorem live : Conserving before live := ⟨trivial, fun _ => trivial⟩

theorem ensureSweeping : Conserving before ensureSweeping := ⟨trivial, fun _ => trivial⟩

theorem update {v r : Record} (hid : v.id = r.id) (hmapping : r.mapping = v.mapping) :
    Conserving (some v) (update r) :=
  ⟨⟨v, rfl, hid, hmapping⟩, fun _ => trivial⟩

end Conserving

/-! ## Starting and looking up -/

theorem conserving_start (host : Option Text) : Conserving before (start host) := by
  refine Conserving.bind .ensureSweeping fun _ => .bind .timeout fun limit => ?_
  refine Conserving.bind (.allow host) fun _ => .bind .mint fun id => .bind .clock fun now => ?_
  refine Conserving.bind (.create _) fun _ => .bind (.count _) fun _ => ?_
  exact Conserving.bind (.log _ _) fun _ => .bind (.announce _ _) fun _ => .pure id

theorem conserving_replaceOrReport (id : Id) (host : Option Text) (ctx : Context) (why : Fault) :
    Conserving before (replaceOrReport id host ctx why) := by
  refine Conserving.bind .autoCreate fun auto => ?_
  split
  · refine Conserving.bind (conserving_start _) fun _ => .bind (.count _) fun _ => ?_
    exact Conserving.bind (.log _ _) fun _ => .pure _
  · exact .pure _

theorem conserving_expireIfTimedOut (id : Id) (now : Timestamp) :
    Conserving before (expireIfTimedOut id now) := by
  refine Conserving.locked (Conserving.read_bind fun found => ?_)
  cases found with
  | none => exact .pure _
  | some r =>
    simp only
    split
    · refine Conserving.ofExcept_bind fun marked hmarked => ?_
      obtain ⟨_, rfl⟩ := Record.expire_eq_ok_iff.1 hmarked
      exact Conserving.bind (.update rfl rfl) fun _ => .bind (.count _) fun _ => .pure _
    · exact .pure _

theorem conserving_lookupTimedOut (id : Id) (r : Record) (now : Timestamp) (ctx : Context) :
    Conserving before (lookupTimedOut id r now ctx) := by
  refine Conserving.bind (conserving_expireIfTimedOut id now) fun x => ?_
  obtain ⟨current, marked⟩ := x
  cases current with
  | none => exact .pure _
  | some c =>
    have hannounced : ∀ p : Op Finding, Conserving none p →
        Conserving none (if marked then announce .expiration c >>= fun _ => p else p) := by
      intro p hp
      split
      · exact Conserving.bind (.announce _ _) fun _ => hp
      · exact hp
    refine hannounced _ ?_
    split
    · exact conserving_replaceOrReport _ _ _ _
    · exact .pure _
    · exact conserving_replaceOrReport _ _ _ _

theorem conserving_lookup (id : Id) (ctx : Context) : Conserving before (lookup id ctx) := by
  unfold lookup
  by_cases hid : id = []
  · rw [if_pos hid]
    exact .fail _
  · rw [if_neg hid]
    refine Conserving.bind .ensureSweeping fun _ => Conserving.read_bind fun found => ?_
    cases found with
    | none => exact .pure _
    | some r =>
      refine Conserving.bind .clock fun now => ?_
      split
      · exact conserving_replaceOrReport _ _ _ _
      · exact .pure _
      · exact conserving_lookupTimedOut _ _ _ _
      · exact conserving_replaceOrReport _ _ _ _

theorem conserving_getSession (id : Id) (ctx : Context) : Conserving before (getSession id ctx) := by
  refine Conserving.bind (conserving_lookup id ctx) fun finding => ?_
  cases finding with
  | found r => exact .pure r
  | replaced old new cause => exact .fail _
  | invalid id why => exact .fail _

theorem conserving_validateSession (id : Id) (ctx : Context) :
    Conserving before (validateSession id ctx) :=
  Conserving.bind (conserving_getSession id ctx) fun _ => .pure ()

theorem conserving_isValid (id : Id) (ctx : Context) : Conserving before (isValid id ctx) := by
  unfold isValid
  by_cases hid : id = []
  · rw [if_pos hid]
    exact .pure _
  · rw [if_neg hid]
    refine Conserving.bind (conserving_validateSession id ctx).attempt fun outcome => ?_
    cases outcome with
    | ok _ => exact .pure _
    | error f =>
      simp only
      split
      · exact Conserving.bind (.log _ _) fun _ => .pure _
      · split
        · exact Conserving.bind (.log _ _) fun _ => .pure _
        · exact .fail _

/-! ## Stopping and sweeping -/

theorem conserving_stopNow (id : Id) : Conserving before (stopNow id) := by
  refine Conserving.locked (Conserving.read_bind fun found => ?_)
  cases found with
  | none => exact .fail _
  | some r =>
    refine Conserving.clock_bind fun now => Conserving.ofExcept_bind fun stopped hstopped => ?_
    obtain ⟨_, rfl⟩ := Record.stop_eq_ok_iff.1 hstopped
    exact Conserving.bind (.update rfl rfl) fun _ => .pure _

theorem conserving_stop (id : Id) (ctx : Context) : Conserving before (stop id ctx) := by
  refine Conserving.bind (conserving_getSession id ctx) fun _ => ?_
  refine Conserving.bind (conserving_stopNow id) fun _ => .bind (.count _) fun _ => ?_
  exact Conserving.bind (.log _ _) fun _ => .announce _ _

theorem conserving_sweepOne (r : Record) (now : Timestamp) : Conserving before (sweepOne r now) := by
  unfold sweepOne
  split
  · refine Conserving.bind (conserving_expireIfTimedOut _ _) fun x => ?_
    split
    · exact Conserving.bind (.announce _ _) fun _ => .bind (.log _ _) fun _ => .pure _
    · exact .pure _
  · exact .pure _

theorem conserving_sweepAll (now : Timestamp) (rs : List Record) (t : Tally) :
    Conserving before (sweepAll now rs t) := by
  induction rs generalizing before t with
  | nil => exact .pure t
  | cons r rs ih =>
    refine Conserving.bind (conserving_sweepOne r now).attempt fun outcome => ?_
    match outcome with
    | .ok true => exact ih _
    | .ok false => exact ih _
    | .error f =>
      simp only
      split
      · exact Conserving.bind (.log _ _) fun _ => ih _
      · exact .fail _

theorem conserving_sweep : Conserving before sweep := by
  refine Conserving.bind (.log _ _) fun _ => .bind .clock fun now => .bind .live fun active => ?_
  refine Conserving.bind (conserving_sweepAll now active _) fun t => .bind (.count _) fun _ => ?_
  exact Conserving.bind (.log _ _) fun _ => .pure _

end Manager
end Sessions
