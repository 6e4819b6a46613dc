import Sessions.Proofs.Crowd.Protocol

/-!
# Sessions.Proofs.Manager.Prudence

Where records are marked as expired. A request does it inside of `expireIfTimedOut` and nowhere else, and
there it writes the mark over the record that it has just read.

* `expiry` is an expiry with what a program goes on with, `expiry_eq` its questions in order.
* `Prudent` says that a program marks in expiries only, whatever the answers to its questions are.
* `prudent_request`: all requests are like that.
-/

namespace Sessions

namespace Program

variable {Q : Type} {A : Q → Type} {α β : Type}

theorem attempt_bind_done (p : Program Q A α) : p.attempt.bind done = p := by
  induction p with
  | done r => rfl
  | ask q next ih => exact congrArg (ask q) (funext fun a => ih a)

theorem attempt_bind_attempt (p : Program Q A α) (k : Except Fault α → Program Q A β) :
    (p.attempt.bind k).attempt = p.attempt.bind fun x => (k x).attempt := by
  induction p with
  | done r => rfl
  | ask q next ih => exact congrArg (ask q) (funext fun a => ih a)

end Program

namespace Manager

variable {α β : Type} {p : Op α}

/-- The question is for a record to be written that is marked as expired. -/
def Question.marks : Question → Bool
  | .update r => r.expired
  | _ => false

/-- An expiry and what comes behind it, whether it fails or not. -/
def expiry (id : Id) (now : Timestamp) (k : Except Fault (Option Record × Bool) → Op α) : Op α :=
  (expireIfTimedOut id now).attempt.bind k

theorem expiry_bind (id : Id) (now : Timestamp) (k : Except Fault (Option Record × Bool) → Op α)
    (f : α → Op β) : (expiry id now k >>= f) = expiry id now fun x => k x >>= f :=
  Program.bind_bind _ k f

theorem attempt_expiry (id : Id) (now : Timestamp) (k : Except Fault (Option Record × Bool) → Op α) :
    (expiry id now k).attempt = expiry id now fun x => (k x).attempt :=
  Program.attempt_bind_attempt _ k

theorem expireIfTimedOut_eq (id : Id) (now : Timestamp) :
    expireIfTimedOut id now = expiry id now .done :=
  (Program.attempt_bind_done _).symm

/-- Whatever is answered, the program marks records as expired in expiries only. -/
inductive Prudent : Op α → Prop
  | done (x : Except Fault α) : Prudent (.done x)
  | ask (q : Question) (next : Reply q → Op α) (hq : q.marks = false) (hnext : ∀ a, Prudent (next a)) :
    Prudent (.ask q next)
  | expiry (id : Id) (now : Timestamp) (k : Except Fault (Option Record × Bool) → Op α)
    (hk : ∀ x, Prudent (k x)) : Prudent (expiry id now k)

namespace Prudent

theorem bind {f : α → Op β} (hp : Prudent p) (hf : ∀ a, Prudent (f a)) : Prudent (p >>= f) := by
  induction hp with
  | done x =>
    cases x with
    | ok a => exact hf a
    | error e => exact .done (.error e)
  | ask q next hq _ ih => exact .ask q _ hq ih
  | expiry id now k _ ih =>
    rw [expiry_bind]
    exact .expiry id now _ ih

theorem attempt (hp : Prudent p) : Prudent p.attempt := by
  induction hp with
  | done x => exact .done (.ok x)
  | ask q next hq _ ih => exact .ask q _ hq ih
  | expiry id now k _ ih =>
    rw [attempt_expiry]
    exact .expiry id now _ ih

theorem question {q : Question} (hq : q.marks = false) : Prudent (Manager.ask q) :=
  .ask q _ hq fun a => .done (.ok a)

theorem update {r : Record} (hr : r.expired = false) : Prudent (update r) := .ask (.update r) _ hr .done

theorem locked (hp : Prudent p) : Prudent (locked p) := by
  refine .ask .lock _ rfl fun _ => hp.attempt.bind fun x => ?_
  exact .ask .unlock _ rfl fun _ => .done x

/-- A question of a prudent program is for no mark, or it is the first one of an expiry. -/
theorem ask_cases {q : Question} {next : Reply q → Op α} (h : Prudent (.ask q next)) :
    (q.marks = false ∧ ∀ a, Prudent (next a)) ∨
      ∃ id now k, .ask q next = Manager.expiry id now k ∧ ∀ x, Prudent (k x) := by
  generalize hp : Program.ask q next = p at h
  cases h with
  | done x => cases hp
  | ask q next hq hnext =>
    cases hp
    exact .inl ⟨hq, hnext⟩
  | expiry id now k hk => exact .inr ⟨id, now, k, rfl, hk⟩

end Prudent

/-! ## Expiries -/

/-- An expiry takes the lock and reads the record. It marks the record if it is timed out; there is
nothing else that it does not leave as it is. -/
theorem expiry_eq (id : Id) (now : Timestamp) {k : Except Fault (Option Record × Bool) → Op α}
    (hk : ∀ x, Prudent (k x)) :
    ∃ next, expiry id now k = .ask .lock (fun _ => .ask (.read id) next) ∧
      ∀ a, Prudent (next a) ∨ ∃ r next', a = .ok (some r) ∧ r.validity now = .timedOut ∧
        next a = .ask (.update r.marked) next' ∧ ∀ b, Prudent (next' b) := by
  refine ⟨_, rfl, fun a => ?_⟩
  have hbehind (x) : Prudent (.ask .unlock fun _ => k x) := .ask .unlock _ rfl fun _ => hk x
  match a with
  | .error f => exact .inl (hbehind _)
  | .ok none => exact .inl (hbehind _)
  | .ok (some r) =>
    simp only [Program.bind]
    by_cases hnow : r.validity now = .timedOut
    · rw [if_pos hnow, Record.expire_of_timedOut hnow]
      refine .inr ⟨r, _, rfl, hnow, rfl, fun b => ?_⟩
      cases b with
      | ok _ => exact .ask (.count .expired) _ rfl fun _ => hbehind _
      | error f => exact hbehind _
    · rw [if_neg hnow]
      exact .inl (hbehind _)

/-! ## The requests -/

theorem prudent_expireIfTimedOut (id : Id) (now : Timestamp) : Prudent (expireIfTimedOut id now) := by
  rw [expireIfTimedOut_eq]
  exact .expiry id now _ .done

theorem prudent_start (host : Option Text) : Prudent (start host) := by
  refine .bind (.ask _ _ rfl .done) fun _ => .bind (.question rfl) fun limit => ?_
  refine .bind (.ask _ _ rfl .done) fun _ => .bind (.question rfl) fun i => ?_
  refine .bind (.question rfl) fun now => .bind (.ask _ _ rfl .done) fun _ => ?_
  refine .bind (.question rfl) fun _ => .bind (.question rfl) fun _ => ?_
  exact .bind (.question rfl) fun _ => .done _

theorem prudent_replaceOrReport (id : Id) (host : Option Text) (ctx : Context) (why : Fault) :
    Prudent (replaceOrReport id host ctx why) := by
  refine .bind (.question rfl) fun auto => ?_
  cases auto with
  | true =>
    refine .bind (prudent_start _) fun fresh => .bind (.question rfl) fun _ => ?_
    exact .bind (.question rfl) fun _ => .done _
  | false => exact .done _

theorem prudent_lookupTimedOut (id : Id) (r : Record) (now : Timestamp) (ctx : Context) :
    Prudent (lookupTimedOut id r now ctx) := by
  refine .bind (prudent_expireIfTimedOut id now) fun found => ?_
  obtain ⟨current, marked⟩ := found
  cases current with
  | none => exact .done _
  | some c =>
    -- what comes behind an announcement is what comes without one
    have announced (p : Op Finding) (hp : Prudent p) :
        Prudent (if marked then announce .expiration c >>= fun _ => p else p) := by
      cases marked with
      | true => exact .bind (.question rfl) fun _ => hp
      | false => exact hp
    refine announced _ ?_
    split
    · exact prudent_replaceOrReport _ _ _ _
    · exact .done _
    · exact prudent_replaceOrReport _ _ _ _

theorem prudent_lookup (id : Id) (ctx : Context) : Prudent (lookup id ctx) := by
  unfold lookup
  by_cases hid : id = []
  · rw [if_pos hid]
    exact .done _
  · rw [if_neg hid]
    refine .bind (.ask _ _ rfl .done) fun _ => .bind (.ask _ _ rfl .done) fun found => ?_
    cases found with
    | none => exact .done _
    | some r =>
      refine .bind (.question rfl) fun now => ?_
      split
      · exact prudent_replaceOrReport _ _ _ _
      · exact .done _
      · exact prudent_lookupTimedOut _ _ _ _
      · exact prudent_replaceOrReport _ _ _ _

theorem prudent_getSession (id : Id) (ctx : Context) : Prudent (getSession id ctx) := by
  refine .bind (prudent_lookup id ctx) fun finding => ?_
  cases finding <;> exact .done _

theorem prudent_isValid (id : Id) (ctx : Context) : Prudent (isValid id ctx) := by
  unfold isValid
  by_cases hid : id = []
  · rw [if_pos hid]
    exact .done _
  · rw [if_neg hid]
    have hvalidated : Prudent (validateSession id ctx) :=
      .bind (prudent_getSession id ctx) fun _ => .done _
    refine .bind hvalidated.attempt fun outcome => ?_
    cases outcome with
    | ok _ => exact .done _
    | error f =>
      simp only
      split
      · exact .bind (.question rfl) fun _ => .done _
      · split
        · exact .bind (.question rfl) fun _ => .done _
        · exact .done _

/-- A change of a live record is no mark. -/
theorem prudent_mutate (id : Id) (ctx : Context)
    {change : Record → Timestamp → Except Fault (α × Option Record)}
    (hchange : ∀ r now a r', change r now = .ok (a, some r') → r'.isTerminal = false) :
    Prudent (mutate id ctx change) := by
  refine .bind (prudent_getSession id ctx) fun r => .bind (.question rfl) fun now => ?_
  cases hx : change r now with
  | error f => exact .done _
  | ok x =>
    obtain ⟨a, changed⟩ := x
    cases changed with
    | none => exact .done _
    | some r' =>
      have hlive : r'.expired = false := (Record.isTerminal_eq_false_iff.1 (hchange r now a r' hx)).2
      change Prudent (update r' >>= fun _ => Pure.pure a)
      exact .bind (.update hlive) fun _ => .done _

theorem prudent_stop (id : Id) (ctx : Context) : Prudent (stop id ctx) := by
  refine .bind (prudent_getSession id ctx) fun _ => .bind ?_ fun stopped => ?_
  · refine .locked (.bind (.ask _ _ rfl .done) fun found => ?_)
    cases found with
    | none => exact .done _
    | some r =>
      refine .bind (.question rfl) fun now => ?_
      cases hstop : r.stop now with
      | error f => exact .done _
      | ok stopped =>
        change Prudent (update stopped >>= fun _ => Pure.pure stopped)
        exact .bind (.update (ends_of_stop hstop).2) fun _ => .done _
  · refine .bind (.question rfl) fun _ => .bind (.question rfl) fun _ => ?_
    exact .question rfl

theorem prudent_remove (id : Id) (ctx : Context) (key : Text) : Prudent (remove id ctx key) := by
  refine prudent_mutate id ctx fun r now v r' h => ?_
  cases hremove : r.remove key now with
  | error f => rw [hremove] at h; cases h
  | ok x =>
    rw [hremove, Except.map, Except.ok.injEq, Prod.mk.injEq] at h
    obtain ⟨_, hwritten⟩ := Option.ite_none_right_eq_some.1 h.2
    cases hwritten
    exact (Record.Amends.of_remove hremove).live'

theorem prudent_set (id : Id) (ctx : Context) (key : Text) (value : Value) :
    Prudent (set id ctx key value) := by
  unfold set
  by_cases hvalue : value = .absent
  · rw [if_pos hvalue]
    exact .bind (prudent_remove id ctx key) fun _ => .done _
  · rw [if_neg hvalue]
    exact prudent_mutate id ctx fun _ _ _ _ => live_of_map fun _ => Record.Amends.of_set

theorem prudent_serve (id : Id) (ctx : Context) (c : Call) : Prudent (serve id ctx c) := by
  have got {β : Type} (f : Record → β) : Prudent (do return f (← getSession id ctx)) :=
    .bind (prudent_getSession id ctx) fun r => .done _
  cases c with
  | setTimeout limit =>
    exact prudent_mutate id ctx fun _ _ _ _ => live_of_map fun _ => Record.Amends.of_setTimeout
  | touch => exact prudent_mutate id ctx fun _ _ _ _ => live_of_map fun _ => Record.Amends.of_touch
  | stop => exact prudent_stop id ctx
  | remove key => exact prudent_remove id ctx key
  | set key value => exact prudent_set id ctx key value
  | _ => exact got _

theorem prudent_sweepOne (r : Record) (now : Timestamp) : Prudent (sweepOne r now) := by
  unfold sweepOne
  by_cases hnow : r.validity now = .timedOut
  · rw [if_pos hnow]
    refine .bind (prudent_expireIfTimedOut r.id now) fun outcome => ?_
    split
    · exact .bind (.question rfl) fun _ => .bind (.question rfl) fun _ => .done _
    · exact .done _
  · rw [if_neg hnow]
    exact .done _

theorem prudent_sweepAll (now : Timestamp) (rs : List Record) (t : Tally) :
    Prudent (sweepAll now rs t) := by
  induction rs generalizing t with
  | nil => exact .done _
  | cons r rs ih =>
    refine .bind (prudent_sweepOne r now).attempt fun outcome => ?_
    split
    · exact ih _
    · exact ih t
    · split
      · exact .bind (.question rfl) fun _ => ih _
      · exact .done _

/-- A sweep expires the first of its sessions, if that is timed out, before anything else. -/
theorem exists_sweepAll_eq {r : Record} {now : Timestamp} (hnow : r.validity now = .timedOut)
    (rs : List Record) (t : Tally) : ∃ k, sweepAll now (r :: rs) t = expiry r.id now k := by
  rw [sweepAll, sweepOne, if_pos hnow, expireIfTimedOut_eq, expiry_bind, attempt_expiry, expiry_bind]
  exact ⟨_, rfl⟩

/-- Every request marks records as expired in expiries only. -/
theorem prudent_request (request : Request) : Prudent request.program := by
  have discarded {β : Type} {p : Op β} (hp : Prudent p) : Prudent (discard p) :=
    .bind hp fun _ => .done _
  cases request with
  | start host => exact discarded (prudent_start host)
  | call id ctx c => exact discarded (prudent_serve id ctx c)
  | isValid id ctx => exact discarded (prudent_isValid id ctx)
  | lookup id ctx => exact discarded (prudent_lookup id ctx)
  | getSession id ctx => exact discarded (prudent_getSession id ctx)
  | sweep =>
    refine discarded (.bind (.question rfl) fun _ => .bind (.question rfl) fun now => ?_)
    refine .bind (.ask _ _ rfl .done) fun active => .bind (prudent_sweepAll now active _) fun t => ?_
    exact .bind (.question rfl) fun _ => .bind (.question rfl) fun _ => .done _

end Manager
end Sessions
