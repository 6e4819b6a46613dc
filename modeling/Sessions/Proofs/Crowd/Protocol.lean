import Sessions.Crowd
import Sessions.Proofs.Record.Effect

/-!
# Sessions.Proofs.Crowd.Protocol

What every request to the manager keeps to, whatever the answers to its questions are.

A request is in one of four phases. As a rule it is free: it may write live records only, and it
gives up when such a record is refused. Under the lock it reads, and over a record that it read
live it may write one that ended. Having done that it lets go of the lock, and then it owes the
notification, with the record that it wrote. Then it is free again.

* `Phase.allows` and `Phase.behind` are the protocol, as an automaton over questions and answers.
* `Keeps` says that a program follows it from a phase on, and what it comes to.
* `tidy_request`: all requests follow it.
-/

namespace Sessions

/-- The event is about an end like that of the record. -/
def Event.Ends : Event → Record → Prop
  | .start, _ => False
  | .stop, r => r.isStopped = true ∧ r.expired = false
  | .expiration, r => r.isStopped = false ∧ r.expired = true

theorem Event.Ends.isTerminal {ev : Event} {r : Record} (h : ev.Ends r) : r.isTerminal = true := by
  cases ev with
  | start => cases h
  | stop => simp [Record.isTerminal, h.1]
  | expiration => simp [Record.isTerminal, h.2]

theorem Event.Ends.ne_start {ev : Event} {r : Record} (h : ev.Ends r) : ev ≠ .start := by
  rintro rfl
  cases h

namespace Manager

inductive Phase where
  | free
  /-- It has the lock. The record it read last was live and had this id, if any. -/
  | locked (seen : Option Id)
  /-- It has the lock, and under it wrote this record, which ended. -/
  | wrote (r : Record)
  /-- It let go of the lock and is to announce the end of this record. -/
  | owing (r : Record)

namespace Phase

/-- Whether a question is in order. The flag says whether the program may write without the lock. -/
def allows (w : Bool) : Phase → Question → Prop
  | free, .update r => w = true ∧ r.isTerminal = false
  | free, .create r => r.isTerminal = false
  | free, .announce ev _ => ev = .start
  | free, .unlock => False
  | free, _ => True
  | locked seen, .update r => seen = some r.id ∧ r.isTerminal = true
  | locked _, .read _ | locked _, .clock | locked _, .unlock => True
  | wrote _, .count _ | wrote _, .unlock => True
  | owing r, .announce ev r' => r' = r ∧ ev.Ends r
  | owing _, .count _ | owing _, .log _ _ => True
  | _, _ => False

/-- The phase behind the answer to a question. -/
def behind : Phase → (q : Question) → Reply q → Phase
  | free, .lock, _ => locked none
  | locked _, .read _, .ok (some r) => locked (if r.isTerminal then none else some r.id)
  | locked _, .read _, _ => locked none
  | locked _, .update r, .ok _ => wrote r
  | locked _, .unlock, _ => free
  | wrote r, .unlock, _ => owing r
  | owing _, .announce _ _, _ => free
  | φ, _, _ => φ

def holds : Phase → Prop
  | locked _ | wrote _ => True
  | free | owing _ => False

end Phase

variable {α β : Type} {w : Bool} {φ : Phase}

/-- A program that writes without the lock fails where its record is refused, with the fault of the
refusal. -/
def GivesUp : Phase → (q : Question) → (Reply q → Op α) → Prop
  | .free, .update _, next => ∀ f, next (.error f) = .done (.error f)
  | _, _, _ => True

/-- From the phase on the program follows the protocol, and ends in a phase and with an outcome such
as given. -/
def Keeps (w : Bool) : Phase → Op α → (Phase → Except Fault α → Prop) → Prop
  | φ, .done x, post => post φ x
  | φ, .ask q next, post =>
    φ.allows w q ∧ GivesUp φ q next ∧ ∀ a, Keeps w (φ.behind q a) (next a) post

/-- The program follows the protocol from the free phase on, and ends there. -/
def Tidy (w : Bool) (p : Op α) : Prop := Keeps w .free p fun ψ _ => ψ = .free

/-! ## Putting programs together -/

theorem GivesUp.bind {q : Question} {next : Reply q → Op α} (h : GivesUp φ q next)
    (f : α → Op β) : GivesUp φ q fun a => (next a).bind f := by
  cases φ with
  | free =>
    cases q with
    | update r => exact fun e => congrArg (·.bind f) (h e)
    | _ => trivial
  | _ => trivial

theorem Keeps.bind {p : Op α} {f : α → Op β} {post : Phase → Except Fault β → Prop}
    (h : Keeps w φ p fun ψ x => match x with
      | .ok a => Keeps w ψ (f a) post
      | .error e => post ψ (.error e)) : Keeps w φ (p >>= f) post := by
  change Keeps w φ (p.bind f) post
  induction p generalizing φ with
  | done x => cases x <;> exact h
  | ask q next ih =>
    obtain ⟨hallows, hgives, hnext⟩ := h
    exact ⟨hallows, hgives.bind f, fun a => ih a (hnext a)⟩

theorem Keeps.mono {p : Op α} {post post' : Phase → Except Fault α → Prop} (h : Keeps w φ p post)
    (hpost : ∀ ψ x, post ψ x → post' ψ x) : Keeps w φ p post' := by
  induction p generalizing φ with
  | done x => exact hpost φ x h
  | ask q next ih =>
    obtain ⟨hallows, hgives, hnext⟩ := h
    exact ⟨hallows, hgives, fun a => ih a (hnext a)⟩

/-- A program that writes under the lock only may be tried. -/
theorem Keeps.attempt {p : Op α} {post : Phase → Except Fault (Except Fault α) → Prop}
    (h : Keeps false φ p fun ψ x => post ψ (.ok x)) : Keeps false φ p.attempt post := by
  induction p generalizing φ with
  | done x => exact h
  | ask q next ih =>
    obtain ⟨hallows, _, hnext⟩ := h
    refine ⟨hallows, ?_, fun a => ih a (hnext a)⟩
    cases φ with
    | free =>
      cases q with
      | update r => exact absurd hallows.1 (by simp)
      | _ => trivial
    | _ => trivial

theorem Phase.allows_of_false {q : Question} (h : φ.allows false q) : φ.allows w q := by
  cases φ with
  | free =>
    cases q with
    | update r => exact absurd h.1 (by simp)
    | _ => exact h
  | _ => cases q <;> exact h

theorem Keeps.of_false {p : Op α} {post : Phase → Except Fault α → Prop}
    (h : Keeps false φ p post) : Keeps w φ p post := by
  induction p generalizing φ with
  | done x => exact h
  | ask q next ih =>
    obtain ⟨hallows, hgives, hnext⟩ := h
    exact ⟨Phase.allows_of_false hallows, hgives, fun a => ih a (hnext a)⟩

theorem Keeps.ask {q : Question} {f : Reply q → Op α} {post : Phase → Except Fault α → Prop}
    (hallows : φ.allows w q) (hgives : GivesUp φ q f)
    (h : ∀ a, Keeps w (φ.behind q a) (f a) post) : Keeps w φ (ask q >>= f) post :=
  ⟨hallows, hgives, h⟩

theorem Keeps.read {id : Id} {f : Option Record → Op α} {post : Phase → Except Fault α → Prop}
    (hallows : φ.allows w (.read id))
    (hok : ∀ r, Keeps w (φ.behind (.read id) (.ok r)) (f r) post)
    (herror : ∀ e, post (φ.behind (.read id) (.error e)) (.error e)) :
    Keeps w φ (read id >>= f) post := by
  refine Keeps.bind ⟨hallows, ?_, fun a => ?_⟩
  · cases φ <;> trivial
  · cases a with
    | ok r => exact hok r
    | error e => exact herror e

/-- What a program does under the lock: it writes nothing, or it owes a notification behind it. -/
theorem Keeps.locked {p : Op α} {post : Phase → Except Fault α → Prop}
    (h : Keeps false (.locked none) p fun ψ x => match ψ with
      | .locked _ => post .free x
      | .wrote r => post (.owing r) x
      | _ => False) : Keeps w .free (locked p) post := by
  refine Keeps.ask trivial trivial fun _ => ?_
  refine Keeps.of_false (Keeps.bind (Keeps.attempt (h.mono ?_)))
  intro ψ x hx
  cases ψ with
  | locked seen => exact Keeps.ask trivial trivial fun _ => hx
  | wrote r => exact Keeps.ask trivial trivial fun _ => hx
  | _ => cases hx

/-- A write under the lock, of an end of the record that was read last. -/
theorem Keeps.update_seen {r r' : Record} {f : Unit → Op α} {post : Phase → Except Fault α → Prop}
    (hlive : r.isTerminal = false) (hid : r'.id = r.id) (hend : r'.isTerminal = true)
    (hok : Keeps w (.wrote r') (f ()) post) (herror : ∀ e seen, post (.locked seen) (.error e)) :
    Keeps w (.locked (if r.isTerminal then none else some r.id)) (update r' >>= f) post := by
  refine Keeps.bind ⟨⟨?_, hend⟩, trivial, fun a => ?_⟩
  · simp [hlive, hid]
  · cases a with
    | ok _ => exact hok
    | error e => exact herror e _

namespace Tidy

theorem bind {p : Op α} {f : α → Op β} (hp : Tidy w p) (hf : ∀ a, Tidy w (f a)) :
    Tidy w (p >>= f) := by
  refine Keeps.bind (Keeps.mono hp ?_)
  rintro _ x rfl
  cases x with
  | ok a => exact hf a
  | error e => rfl

theorem attempt {p : Op α} (hp : Tidy false p) : Tidy false p.attempt := Keeps.attempt hp

theorem of_false {p : Op α} (hp : Tidy false p) : Tidy w p := Keeps.of_false hp

theorem pure (a : α) : Tidy w (Pure.pure a : Op α) := rfl

theorem fail (f : Fault) : Tidy w (Program.fail f : Op α) := rfl

theorem clock : Tidy w clock := ⟨trivial, trivial, fun _ => rfl⟩

theorem mint : Tidy w mint := ⟨trivial, trivial, fun _ => rfl⟩

theorem log (level : Level) (message : Text) : Tidy w (log level message) :=
  ⟨trivial, trivial, fun _ => rfl⟩

theorem count (c : Counter) : Tidy w (count c) := ⟨trivial, trivial, fun _ => rfl⟩

theorem announce_start (r : Record) : Tidy w (announce .start r) := ⟨rfl, trivial, fun _ => rfl⟩

theorem autoCreate : Tidy w autoCreate := ⟨trivial, trivial, fun _ => rfl⟩

theorem timeout : Tidy w timeout := ⟨trivial, trivial, fun _ => rfl⟩

theorem allow (host : Option Text) : Tidy w (allow host) := ⟨trivial, trivial, fun _ => rfl⟩

theorem read (id : Id) : Tidy w (read id) := ⟨trivial, trivial, fun _ => rfl⟩

theorem live : Tidy w live := ⟨trivial, trivial, fun _ => rfl⟩

theorem ensureSweeping : Tidy w ensureSweeping := ⟨trivial, trivial, fun _ => rfl⟩

theorem create {r : Record} (hr : r.isTerminal = false) : Tidy w (create r) :=
  ⟨hr, trivial, fun _ => rfl⟩

theorem update {r : Record} (hr : r.isTerminal = false) : Tidy true (update r) :=
  ⟨⟨rfl, hr⟩, fun _ => rfl, fun _ => rfl⟩

end Tidy

/-! ## The transitions -/

theorem ends_of_stop {r r' : Record} {now : Timestamp} (h : r.stop now = .ok r') :
    Event.stop.Ends r' := by
  obtain ⟨hlive, rfl⟩ := Record.stop_eq_ok_iff.1 h
  exact ⟨rfl, (Record.isTerminal_eq_false_iff.1 hlive).2⟩

theorem ends_of_expire {r r' : Record} (h : r.expire = .ok r') : Event.expiration.Ends r' := by
  obtain ⟨hlive, rfl⟩ := Record.expire_eq_ok_iff.1 h
  have hstop : r.marked.stopTime = none := (Record.isTerminal_eq_false_iff.1 hlive).1
  exact ⟨by rw [Record.isStopped, hstop]; rfl, rfl⟩

/-- The notification that an expiry under the lock owes. -/
theorem keeps_expireIfTimedOut (id : Id) (now : Timestamp) :
    Keeps w .free (expireIfTimedOut id now) fun ψ x => match x with
      | .ok (current, true) => ∃ r, current = some r ∧ ψ = .owing r ∧ Event.expiration.Ends r
      | _ => ψ = .free := by
  refine Keeps.locked (Keeps.read trivial (fun found => ?_) fun _ => rfl)
  cases found with
  | none => rfl
  | some r =>
    change Keeps false (.locked (if r.isTerminal then none else some r.id)) _ _
    by_cases hnow : r.validity now = .timedOut
    · have hlive := Record.isTerminal_of_validity (Or.inr hnow)
      have hexpire := Record.expire_of_timedOut hnow
      simp only [if_pos hnow]
      rw [hexpire]
      refine Keeps.update_seen hlive r.marked_id r.marked_isTerminal ?_ fun _ _ => trivial
      exact Keeps.ask trivial trivial fun _ => ⟨_, rfl, rfl, ends_of_expire hexpire⟩
    · simp only [if_neg hnow]
      trivial

/-- The notification that a stop under the lock owes. -/
theorem keeps_stopNow (id : Id) :
    Keeps w .free (stopNow id) fun ψ x => match x with
      | .ok r => ψ = .owing r ∧ Event.stop.Ends r
      | _ => ψ = .free := by
  refine Keeps.locked (Keeps.read trivial (fun found => ?_) fun _ => rfl)
  cases found with
  | none => rfl
  | some r =>
    change Keeps false (.locked (if r.isTerminal then none else some r.id)) _ _
    refine Keeps.ask trivial trivial fun now => ?_
    cases hstop : r.stop now with
    | error f => rfl
    | ok stopped =>
      have hlive := (Record.stop_eq_ok_iff.1 hstop).1
      have hends := ends_of_stop hstop
      refine Keeps.update_seen hlive (Record.evolves_of_stop hstop).id hends.isTerminal ?_
        fun _ _ => rfl
      exact ⟨rfl, hends⟩

/-! ## The requests -/

theorem tidy_start (host : Option Text) : Tidy w (start host) := by
  refine Tidy.bind .ensureSweeping fun _ => Tidy.bind .timeout fun limit => ?_
  refine Tidy.bind (.allow host) fun _ => Tidy.bind .mint fun id => Tidy.bind .clock fun now => ?_
  refine Tidy.bind (.create rfl) fun _ => Tidy.bind (.count _) fun _ => ?_
  exact Tidy.bind (.log _ _) fun _ => Tidy.bind (.announce_start _) fun _ => .pure id

theorem tidy_replaceOrReport (id : Id) (host : Option Text) (ctx : Context) (why : Fault) :
    Tidy w (replaceOrReport id host ctx why) := by
  refine Tidy.bind .autoCreate fun auto => ?_
  split
  · refine Tidy.bind (tidy_start _) fun _ => Tidy.bind (.count _) fun _ => ?_
    exact Tidy.bind (.log _ _) fun _ => .pure _
  · exact .pure _

theorem tidy_lookupTimedOut (id : Id) (r : Record) (now : Timestamp) (ctx : Context) :
    Tidy w (lookupTimedOut id r now ctx) := by
  refine Keeps.bind ((keeps_expireIfTimedOut id now).mono ?_)
  intro ψ x hx
  match x with
  | .ok (some c, marked) =>
    -- a caller that marked the record announces that first
    have announced : ∀ p : Op Finding, Tidy w p →
        Keeps w ψ (if marked then announce .expiration c >>= fun _ => p else p)
          fun ψ _ => ψ = .free := by
      intro p hp
      cases marked with
      | true =>
        obtain ⟨_, hc, rfl, hends⟩ := hx
        cases hc
        exact Keeps.ask ⟨rfl, hends⟩ trivial fun _ => hp
      | false =>
        cases hx
        exact hp
    refine announced _ ?_
    split
    · exact tidy_replaceOrReport _ _ _ _
    · exact .pure _
    · exact tidy_replaceOrReport _ _ _ _
  | .ok (none, true) =>
    obtain ⟨_, hnone, _⟩ := hx
    cases hnone
  | .ok (none, false) => exact hx
  | .error f => exact hx

theorem tidy_lookup (id : Id) (ctx : Context) : Tidy w (lookup id ctx) := by
  unfold lookup
  by_cases hid : id = []
  · rw [if_pos hid]
    exact .fail _
  · rw [if_neg hid]
    refine Tidy.bind .ensureSweeping fun _ => Tidy.bind (.read id) fun found => ?_
    cases found with
    | none => exact .pure _
    | some r =>
      refine Tidy.bind .clock fun now => ?_
      split
      · exact tidy_replaceOrReport _ _ _ _
      · exact .pure _
      · exact tidy_lookupTimedOut _ _ _ _
      · exact tidy_replaceOrReport _ _ _ _

theorem tidy_getSession (id : Id) (ctx : Context) : Tidy w (getSession id ctx) := by
  refine Tidy.bind (tidy_lookup id ctx) fun finding => ?_
  cases finding with
  | found r => exact .pure r
  | replaced old new cause => exact .fail _
  | invalid id why => exact .fail _

theorem tidy_validateSession (id : Id) (ctx : Context) : Tidy w (validateSession id ctx) :=
  Tidy.bind (tidy_getSession id ctx) fun _ => .pure ()

theorem tidy_isValid (id : Id) (ctx : Context) : Tidy false (isValid id ctx) := by
  unfold isValid
  by_cases hid : id = []
  · rw [if_pos hid]
    exact .pure _
  · rw [if_neg hid]
    refine Tidy.bind (Tidy.attempt (tidy_validateSession id ctx)) fun outcome => ?_
    cases outcome with
    | ok _ => exact .pure _
    | error f =>
      by_cases hf : f.isInvalidSession
      · simp only [if_pos hf]
        exact Tidy.bind (.log _ _) fun _ => .pure _
      · simp only [if_neg hf]
        split
        · exact Tidy.bind (.log _ _) fun _ => .pure _
        · exact .fail _

theorem tidy_mutate (id : Id) (ctx : Context)
    {change : Record → Timestamp → Except Fault (α × Option Record)}
    (hchange : ∀ r now a r', change r now = .ok (a, some r') → r'.isTerminal = false) :
    Tidy true (mutate id ctx change) := by
  refine Tidy.bind (tidy_getSession id ctx) fun r => Tidy.bind .clock fun now => ?_
  cases hx : change r now with
  | error f => exact .fail f
  | ok p =>
    obtain ⟨a, changed⟩ := p
    cases changed with
    | none => exact .pure a
    | some r' =>
      change Tidy true (update r' >>= fun _ => Pure.pure a)
      exact Tidy.bind (.update (hchange r now a r' hx)) fun _ => .pure a

theorem live_of_map {x : Except Fault Record} {r r' : Record} {a : α} {b : Record → α}
    (hx : ∀ y, x = .ok y → r.Amends y) (h : (x.map fun y => (b y, some y)) = .ok (a, some r')) :
    r'.isTerminal = false := by
  cases hy : x with
  | error _ => rw [hy] at h; cases h
  | ok y =>
    rw [hy] at h
    cases h
    exact (hx _ hy).live'

theorem tidy_setTimeout (id : Id) (ctx : Context) (limit : Millis) :
    Tidy true (setTimeout id ctx limit) :=
  tidy_mutate id ctx fun _ _ _ _ => live_of_map fun _ => Record.Amends.of_setTimeout

theorem tidy_touch (id : Id) (ctx : Context) : Tidy true (touch id ctx) :=
  tidy_mutate id ctx fun _ _ _ _ => live_of_map fun _ => Record.Amends.of_touch

theorem tidy_remove (id : Id) (ctx : Context) (key : Text) : Tidy true (remove id ctx key) := by
  refine tidy_mutate id ctx fun r now v r' h => ?_
  cases hremove : r.remove key now with
  | error f => rw [hremove] at h; cases h
  | ok p =>
    rw [hremove, Except.map, Except.ok.injEq, Prod.mk.injEq] at h
    obtain ⟨_, hwritten⟩ := Option.ite_none_right_eq_some.1 h.2
    cases hwritten
    exact (Record.Amends.of_remove hremove).live'

theorem tidy_set (id : Id) (ctx : Context) (key : Text) (value : Value) :
    Tidy true (set id ctx key value) := by
  unfold set
  by_cases hvalue : value = .absent
  · rw [if_pos hvalue]
    exact Tidy.bind (tidy_remove id ctx key) fun _ => .pure ()
  · rw [if_neg hvalue]
    exact tidy_mutate id ctx fun _ _ _ _ => live_of_map fun _ => Record.Amends.of_set

theorem tidy_stop (id : Id) (ctx : Context) : Tidy w (stop id ctx) := by
  refine Tidy.bind (tidy_getSession id ctx) fun _ => Keeps.bind ((keeps_stopNow id).mono ?_)
  intro ψ x hx
  cases x with
  | error f => exact hx
  | ok r =>
    obtain ⟨rfl, hends⟩ := hx
    refine Keeps.ask trivial trivial fun _ => Keeps.ask trivial trivial fun _ => ?_
    exact ⟨⟨rfl, hends⟩, trivial, fun _ => rfl⟩

theorem tidy_serve (id : Id) (ctx : Context) (c : Call) : Tidy true (serve id ctx c) := by
  have got : ∀ {β : Type} (f : Record → β), Tidy true (do return f (← getSession id ctx)) :=
    fun f => Tidy.bind (tidy_getSession id ctx) fun r => .pure (f r)
  cases c with
  | getStart => exact got _
  | getLastAccess => exact got _
  | getHost => exact got _
  | getTimeout => exact got _
  | keys => exact got _
  | get key => exact got _
  | setTimeout limit => exact tidy_setTimeout id ctx limit
  | touch => exact tidy_touch id ctx
  | stop => exact tidy_stop id ctx
  | set key value => exact tidy_set id ctx key value
  | remove key => exact tidy_remove id ctx key
  | checkValid => exact tidy_validateSession id ctx

theorem tidy_sweepOne (r : Record) (now : Timestamp) : Tidy w (sweepOne r now) := by
  unfold sweepOne
  by_cases hnow : r.validity now = .timedOut
  · rw [if_pos hnow]
    refine Keeps.bind ((keeps_expireIfTimedOut r.id now).mono ?_)
    intro ψ x hx
    match x with
    | .ok (current, true) =>
      obtain ⟨c, rfl, rfl, hends⟩ := hx
      refine Keeps.ask ⟨rfl, hends⟩ trivial fun _ => ?_
      exact Tidy.bind (.log _ _) fun _ => .pure true
    | .ok (none, false) => exact hx
    | .ok (some c, false) => exact hx
    | .error e => exact hx
  · rw [if_neg hnow]
    exact .pure false

theorem tidy_sweepAll (now : Timestamp) (rs : List Record) (t : Tally) :
    Tidy false (sweepAll now rs t) := by
  induction rs generalizing t with
  | nil => exact .pure t
  | cons r rs ih =>
    refine Tidy.bind (Tidy.attempt (tidy_sweepOne r now)) fun outcome => ?_
    match outcome with
    | .ok true => exact ih _
    | .ok false => exact ih _
    | .error f =>
      by_cases hf : f.isOrdinary
      · simp only [if_pos hf]
        exact Tidy.bind (.log _ _) fun _ => ih _
      · simp only [if_neg hf]
        exact .fail f

theorem tidy_sweep : Tidy false sweep := by
  refine Tidy.bind (.log _ _) fun _ => Tidy.bind .clock fun now => Tidy.bind .live fun rs => ?_
  refine Tidy.bind (tidy_sweepAll now rs _) fun t => Tidy.bind (.count _) fun _ => ?_
  exact Tidy.bind (.log _ _) fun _ => .pure _

/-- Every request follows the protocol. -/
theorem tidy_request (request : Request) : Tidy true request.program := by
  have discarded : ∀ {β : Type} {p : Op β}, Tidy true p → Tidy true (discard p) :=
    fun hp => Tidy.bind hp fun _ => .pure ()
  cases request with
  | start host => exact discarded (tidy_start host)
  | call id ctx c => exact discarded (tidy_serve id ctx c)
  | isValid id ctx => exact discarded (.of_false (tidy_isValid id ctx))
  | lookup id ctx => exact discarded (tidy_lookup id ctx)
  | getSession id ctx => exact discarded (tidy_getSession id ctx)
  | sweep => exact discarded (.of_false tidy_sweep)

end Manager
end Sessions
