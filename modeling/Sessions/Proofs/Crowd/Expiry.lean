import Mathlib.Data.List.Induction
import Sessions.Proofs.Crowd.Exclusivity
import Sessions.Proofs.Manager.Prudence

/-!
# Sessions.Proofs.Crowd.Expiry

What an expiry writes over, among many callers of one manager. The expiry reads the record under the lock
and marks what it read, so it respects every write that came before its reading. Those who use a session
write without the lock, so they may come in between its reading and its writing; what they wrote is then
written over.

* `Watched`: the lock is with the one who is under it, and nobody else ends a record then.
* `Watched.stored_run`: how a live record goes on while somebody has the lock.
* `Place` is where a caller stands with an expiry, told from the turns so far; `place_run` keeps it along
  every run.
* `expiry_marks_what_it_read` is what an expiry marks and what it writes over,
  `touch_is_lost_between_reading_and_marking` a touch that it writes over.
-/

namespace Sessions
namespace Crowd

open Manager

variable {ι : Type} {c c' : Crowd ι} {t : Turn ι} {i : ι} {id : Id} {r v : Record}

/-! ## The lock -/

theorem holder_answer {q : Question} {a : Reply q} (h : c.answer t q = some (a, c')) :
    q = .lock ∧ c.holder = none ∧ c'.holder = some t.caller ∨ q = .unlock ∧ c'.holder = none ∨
      q ≠ .lock ∧ q ≠ .unlock ∧ c'.holder = c.holder := by
  by_cases hlock : q = .lock
  · subst hlock
    simp only [answer] at h
    split at h
    · rename_i hfree
      cases h
      exact .inl ⟨rfl, hfree, rfl⟩
    · cases h
  by_cases hunlock : q = .unlock
  · subst hunlock
    cases h
    exact .inr (.inl ⟨rfl, rfl⟩)
  refine .inr (.inr ⟨hlock, hunlock, ?_⟩)
  cases q with
  | lock => exact absurd rfl hlock
  | unlock => exact absurd rfl hunlock
  | create r => obtain ⟨_, _, _, rfl⟩ | ⟨_, _, _, _, rfl⟩ := answer_create h <;> rfl
  | update r => obtain ⟨_, _, _, rfl⟩ | ⟨_, _, _, rfl⟩ := answer_update h <;> rfl
  | _ =>
    cases h
    rfl

theorem holds_behind {φ : Phase} {q : Question} (h : φ.allows true q) (hlock : q ≠ .lock)
    (hunlock : q ≠ .unlock) (a : Reply q) : (φ.behind q a).holds ↔ φ.holds := by
  cases φ with
  | free => cases q <;> first | rfl | contradiction
  | locked seen =>
    cases q with
    | read id =>
      match a with
      | .ok (some r) => rfl
      | .ok none => rfl
      | .error f => rfl
    | update r => cases a <;> rfl
    | _ => first | rfl | contradiction
  | wrote r => cases q <;> first | rfl | contradiction
  | owing r => cases q <;> rfl

/-- Every caller follows the protocol, and the one who is under the lock has it. -/
def Watched (c : Crowd ι) : Prop :=
  ∃ φ : ι → Phase, (∀ j, (φ j).holds ↔ c.holder = some j) ∧
    ∀ j, Keeps true (φ j) (c.task j) fun ψ _ => ψ = .free

theorem watched_gather (store : Store) : (gather store : Crowd ι).Watched :=
  ⟨fun _ => .free, fun _ => by simp [Phase.holds, gather], fun _ => rfl⟩

/-- The lock goes with the phase of the one who asks, and to nobody else. -/
theorem holds_answer {φ : Phase} {q : Question} {a : Reply q} (hallows : φ.allows true q)
    (hφ : φ.holds ↔ c.holder = some t.caller) (hanswer : c.answer t q = some (a, c')) :
    ((φ.behind q a).holds ↔ c'.holder = some t.caller) ∧
      ∀ j ≠ t.caller, c'.holder = some j ↔ c.holder = some j := by
  obtain ⟨rfl, hfree, hholder⟩ | ⟨rfl, hholder⟩ | ⟨hlock, hunlock, hholder⟩ := holder_answer hanswer
  · rw [hholder, hfree]
    cases φ with
    | free => simp [Phase.behind, Phase.holds, eq_comm]
    | _ => cases hallows
  · rw [hholder]
    have hholds : φ.holds := by cases φ <;> exact hallows
    rw [hφ.1 hholds]
    cases φ with
    | locked seen => simp [Phase.behind, Phase.holds, eq_comm]
    | wrote r => simp [Phase.behind, Phase.holds, eq_comm]
    | _ => cases hholds
  · rw [hholder, holds_behind hallows hlock hunlock]
    exact ⟨hφ, fun _ _ => .rfl⟩

theorem exists_answer_update (c : Crowd ι) (t : Turn ι) (v : Record) :
    ∃ a c', c.answer t (.update v) = some (a, c') := by
  simp only [answer]
  cases c.store.update v with
  | ok store => exact ⟨_, _, rfl⟩
  | error f => exact ⟨_, _, rfl⟩

section Steps

variable [DecidableEq ι]

theorem run_concat (c : Crowd ι) (ts : List (Turn ι)) (t : Turn ι) :
    c.run (ts ++ [t]) = (c.run ts).step t := by
  simp [run]

theorem run_append (c : Crowd ι) (ts us : List (Turn ι)) : c.run (ts ++ us) = (c.run ts).run us := by
  simp [run]

/-- What a turn comes to. -/
theorem step_cases (c : Crowd ι) (t : Turn ι) :
    (∃ x, c.task t.caller = .done x ∧ c.step t = c.assign t.caller t.request.program) ∨
    (∃ q next, c.task t.caller = .ask q next ∧ c.answer t q = none ∧ c.step t = c) ∨
    ∃ q next a c', c.task t.caller = .ask q next ∧ c.answer t q = some (a, c') ∧
      c.step t = c'.assign t.caller (next a) := by
  unfold step
  cases hrest : c.task t.caller with
  | done x => exact .inl ⟨x, rfl, rfl⟩
  | ask q next =>
    cases hanswer : c.answer t q with
    | none => exact .inr (.inl ⟨q, next, rfl, hanswer, by simp only [hanswer]⟩)
    | some x => exact .inr (.inr ⟨q, next, x.1, x.2, rfl, hanswer, by simp only [hanswer]⟩)

theorem step_of_answer {q : Question} {next : Reply q → Op Unit} {a : Reply q}
    (hrest : c.task t.caller = .ask q next) (hanswer : c.answer t q = some (a, c')) :
    c.step t = c'.assign t.caller (next a) := by
  unfold step
  simp only [hrest, hanswer]

theorem task_assign_self (c : Crowd ι) (i : ι) (p : Op Unit) : (c.assign i p).task i = p := by
  simp [assign]

theorem task_assign_of_ne (c : Crowd ι) {j : ι} (hj : j ≠ i) (p : Op Unit) :
    (c.assign i p).task j = c.task j := by
  simp [assign, hj]

theorem task_step_of_ne (c : Crowd ι) (ht : t.caller ≠ i) : (c.step t).task i = c.task i := by
  obtain ⟨_, _, heq⟩ | ⟨_, _, _, _, heq⟩ | ⟨_, _, _, c', _, hanswer, heq⟩ := step_cases c t
  · rw [heq, task_assign_of_ne c ht.symm]
  · rw [heq]
  · rw [heq, task_assign_of_ne c' ht.symm, task_answer hanswer]

/-- One caller comes to another phase, and the lock goes with it. -/
theorem watched_move {φ : ι → Phase} {ψ : Phase} {p : Op Unit}
    (hheld : ∀ j, (φ j).holds ↔ c.holder = some j)
    (htasks : ∀ j, Keeps true (φ j) (c.task j) fun ψ _ => ψ = .free) (htask : c'.task = c.task)
    (hi : ψ.holds ↔ c'.holder = some i) (hothers : ∀ j ≠ i, c'.holder = some j ↔ c.holder = some j)
    (hp : Keeps true ψ p fun ψ _ => ψ = .free) : (c'.assign i p).Watched := by
  refine ⟨Function.update φ i ψ, fun j => ?_, keeps_assign (fun j hj => ?_) ?_⟩
  · by_cases hj : j = i
    · rw [hj, Function.update_self]
      exact hi
    · rw [Function.update_of_ne hj, hheld j]
      exact (hothers j hj).symm
  · rw [Function.update_of_ne hj, htask]
    exact htasks j
  · rw [Function.update_self]
    exact hp

theorem Watched.step (h : c.Watched) (t : Turn ι) : (c.step t).Watched := by
  obtain ⟨φ, hheld, htasks⟩ := h
  have htask := htasks t.caller
  obtain ⟨x, hrest, heq⟩ | ⟨_, _, _, _, heq⟩ | ⟨q, next, a, c', hrest, hanswer, heq⟩ := step_cases c t
  · rw [hrest] at htask
    have hφ : φ t.caller = .free := htask
    rw [heq]
    refine watched_move hheld htasks rfl ?_ (fun _ _ => .rfl) (tidy_request t.request)
    rw [← hheld, hφ]
  · rw [heq]
    exact ⟨φ, hheld, htasks⟩
  · rw [hrest] at htask
    obtain ⟨hallows, _, hnext⟩ := htask
    obtain ⟨hself, hothers⟩ := holds_answer hallows (hheld t.caller) hanswer
    rw [heq]
    exact watched_move hheld htasks (task_answer hanswer) hself hothers (hnext a)

theorem Watched.run (h : c.Watched) (ts : List (Turn ι)) : (c.run ts).Watched := by
  induction ts generalizing c with
  | nil => exact h
  | cons t ts ih => exact ih (h.step t)

/-! ## Live records under the lock -/

omit [DecidableEq ι] in
/-- While somebody has the lock, the others neither take it nor end a record. -/
theorem Watched.allows_of_held (h : c.Watched) (hheld : c.holder = some i) (ht : t.caller ≠ i)
    {q : Question} {next : Reply q → Op Unit} (hrest : c.task t.caller = .ask q next) :
    q ≠ .unlock ∧ ∀ v, q = .update v → v.isTerminal = false := by
  obtain ⟨φ, hφ, htasks⟩ := h
  have htask := htasks t.caller
  rw [hrest] at htask
  have hallows := htask.1
  have hnot : ¬(φ t.caller).holds := by
    rw [hφ, hheld, Option.some.injEq]
    exact ht.symm
  refine ⟨?_, ?_⟩
  · rintro rfl
    cases hcase : φ t.caller with
    | locked seen => exact hnot (by rw [hcase]; trivial)
    | wrote r => exact hnot (by rw [hcase]; trivial)
    | _ => rw [hcase] at hallows; cases hallows
  · rintro v rfl
    cases hcase : φ t.caller with
    | free => rw [hcase] at hallows; exact hallows.2
    | locked seen => exact absurd (by rw [hcase]; trivial) hnot
    | _ => rw [hcase] at hallows; cases hallows

theorem Watched.holder_step (h : c.Watched) (hheld : c.holder = some i) (ht : t.caller ≠ i) :
    (c.step t).holder = some i := by
  obtain ⟨_, _, heq⟩ | ⟨_, _, _, _, heq⟩ | ⟨q, next, a, c', hrest, hanswer, heq⟩ := step_cases c t
  · rw [heq]
    exact hheld
  · rw [heq, hheld]
  · rw [heq]
    change c'.holder = some i
    obtain ⟨_, hfree, _⟩ | ⟨hq, _⟩ | ⟨_, _, hholder⟩ := holder_answer hanswer
    · rw [hfree] at hheld
      cases hheld
    · exact absurd hq (h.allows_of_held hheld ht hrest).1
    · rw [hholder, hheld]

/-- A live record stays, while somebody has the lock, until another caller writes over it. -/
theorem Watched.stored_step (h : c.Watched) (hheld : c.holder = some i) (ht : t.caller ≠ i)
    (hr : c.store.read id = some r) (hlive : r.isTerminal = false) :
    ∃ u, (c.step t).store.read id = some u ∧ u.isTerminal = false ∧
      (u = r ∨ c.writing? t.caller = some u) := by
  obtain ⟨_, _, heq⟩ | ⟨_, _, _, _, heq⟩ | ⟨q, next, a, c', hrest, hanswer, heq⟩ := step_cases c t
  · rw [heq]
    exact ⟨r, hr, hlive, .inl rfl⟩
  · rw [heq]
    exact ⟨r, hr, hlive, .inl rfl⟩
  · rw [heq]
    change ∃ u, c'.store.read id = some u ∧ _
    obtain ⟨hstore, _⟩ | ⟨v, lines, rfl, hcreate, _⟩ | ⟨v, rfl, hupdate, _⟩ := content_answer hanswer
    · exact ⟨r, by rw [hstore, hr], hlive, .inl rfl⟩
    · obtain ⟨hnew, _, hothers⟩ := Store.read_create hcreate
      have hid : id ≠ v.id := by
        rintro rfl
        rw [hnew] at hr
        cases hr
      obtain hsame | ⟨_, _, w, hw, hend⟩ := hothers id hid
      · exact ⟨r, by rw [hsame, hr], hlive, .inl rfl⟩
      · rw [hr, Option.some.injEq] at hw
        rw [hw, hend] at hlive
        cases hlive
    · rw [Store.read_update hupdate]
      by_cases hid : id = v.id
      · rw [if_pos hid]
        refine ⟨v, rfl, (h.allows_of_held hheld ht hrest).2 v rfl, .inr ?_⟩
        rw [writing?, hrest]
      · rw [if_neg hid]
        exact ⟨r, hr, hlive, .inl rfl⟩

theorem Watched.stored_run (h : c.Watched) (hheld : c.holder = some i) {ts : List (Turn ι)}
    (hts : ∀ t ∈ ts, t.caller ≠ i) (hr : c.store.read id = some r) (hlive : r.isTerminal = false) :
    (c.run ts).holder = some i ∧ ∃ u, (c.run ts).store.read id = some u ∧ u.isTerminal = false ∧
      (u = r ∨ ∃ first t rest, ts = first ++ t :: rest ∧ (c.run first).writing? t.caller = some u) := by
  induction ts generalizing c r with
  | nil => exact ⟨hheld, r, hr, hlive, .inl rfl⟩
  | cons t ts ih =>
    rw [List.forall_mem_cons] at hts
    obtain ⟨u, hu, hulive, hwrote⟩ := h.stored_step hheld hts.1 hr hlive
    obtain ⟨hheld', u', hu', hulive', hlast⟩ :=
      ih (h.step t) (h.holder_step hheld hts.1) hts.2 hu hulive
    refine ⟨hheld', u', hu', hulive', ?_⟩
    obtain rfl | ⟨first, w, rest, rfl, hw⟩ := hlast
    · exact hwrote.imp_right fun hw => ⟨[], t, ts, rfl, hw⟩
    · exact .inr ⟨t :: first, w, rest, rfl, hw⟩

/-! ## Where a caller stands -/

/-- The last turn of the caller, of the turns so far, came behind these. -/
def Lately (i : ι) (ts before : List (Turn ι)) : Prop :=
  ∃ t after, ts = before ++ t :: after ∧ t.caller = i ∧ ∀ t' ∈ after, t'.caller ≠ i

omit [DecidableEq ι] in
theorem lately_own (ts : List (Turn ι)) (ht : t.caller = i) : Lately i (ts ++ [t]) ts :=
  ⟨t, [], rfl, ht, by simp⟩

omit [DecidableEq ι] in
theorem Lately.other {ts before : List (Turn ι)} (h : Lately i ts before) (ht : t.caller ≠ i) :
    Lately i (ts ++ [t]) before := by
  obtain ⟨w, after, rfl, hw, hafter⟩ := h
  refine ⟨w, after ++ [t], by simp, hw, fun t' ht' => ?_⟩
  obtain ht' | ht' := List.mem_append.1 ht'
  · exact hafter t' ht'
  · rw [List.mem_singleton.1 ht']
    exact ht

/-- Where a caller stands with an expiry, told from the turns so far: in none, or behind the lock, or
behind the reading of a record that it is to mark. -/
inductive Place (store : Store) (i : ι) (ts : List (Turn ι)) : Op Unit → Prop
  | apart {p : Op Unit} (hp : Prudent p) : Place store i ts p
  | took {took : List (Turn ι)} {id : Id} {now : Timestamp} {k next}
    (hlast : Lately i ts took) (htook : ((gather store).run took).task i = expiry id now k)
    (hheld : ((gather store).run ts).holder = some i)
    (hnext : ∀ a, Prudent (next a) ∨ ∃ r next', a = .ok (some r) ∧ r.validity now = .timedOut ∧
      next a = .ask (.update r.marked) next' ∧ ∀ b, Prudent (next' b)) :
    Place store i ts (.ask (.read id) next)
  | looked {took look : List (Turn ι)} {id : Id} {now : Timestamp} {r : Record} {k next}
    (hlast : Lately i ts look) (hfirst : Lately i look took)
    (htook : ((gather store).run took).task i = expiry id now k)
    (hheld : ((gather store).run look).holder = some i)
    (hread : ((gather store).run look).store.read id = some r) (hnow : r.validity now = .timedOut)
    (hlook : ∃ look', ((gather store).run look).task i = .ask (.read id) look')
    (hnext : ∀ b, Prudent (next b)) : Place store i ts (.ask (.update r.marked) next)

section Places

variable {store : Store} {ts : List (Turn ι)}

theorem Place.other {p : Op Unit} (h : Place store i ts p) (ht : t.caller ≠ i) :
    Place store i (ts ++ [t]) p := by
  cases h with
  | apart hp => exact .apart hp
  | took hlast htook hheld hnext =>
    refine .took (hlast.other ht) htook ?_ hnext
    rw [run_concat]
    exact ((watched_gather store).run ts).holder_step hheld ht
  | looked hlast hfirst htook hheld hread hnow hlook hnext =>
    exact .looked (hlast.other ht) hfirst htook hheld hread hnow hlook hnext

/-- A prudent caller takes the lock for an expiry, or stays apart from it. -/
theorem place_of_prudent (hp : Prudent (((gather store).run ts).task t.caller)) :
    Place store t.caller (ts ++ [t]) (((gather store).run (ts ++ [t])).task t.caller) := by
  rw [run_concat]
  obtain ⟨_, _, heq⟩ | ⟨_, _, _, _, heq⟩ | ⟨q, next, a, c', hrest, hanswer, heq⟩ :=
    step_cases ((gather store).run ts) t
  · rw [heq, task_assign_self]
    exact .apart (prudent_request t.request)
  · rw [heq]
    exact .apart hp
  · have hnow : (((gather store).run ts).step t).holder = c'.holder := by rw [heq]; rfl
    rw [heq, task_assign_self]
    rw [hrest] at hp
    obtain ⟨_, hnext⟩ | ⟨id, now, k, hexpiry, hk⟩ := hp.ask_cases
    · exact .apart (hnext a)
    · obtain ⟨look, hlock, hlook⟩ := expiry_eq id now hk
      have htook := hrest.trans hexpiry
      rw [hlock] at hexpiry
      cases hexpiry
      obtain ⟨_, _, hholder⟩ | ⟨hq, _⟩ | ⟨hq, _⟩ := holder_answer hanswer
      · refine .took (lately_own ts rfl) htook ?_ hlook
        rw [run_concat, hnow, hholder]
      · cases hq
      · exact absurd rfl hq

theorem place_concat (h : Place store i ts (((gather store).run ts).task i)) (t : Turn ι) :
    Place store i (ts ++ [t]) (((gather store).run (ts ++ [t])).task i) := by
  by_cases ht : t.caller = i
  · subst ht
    generalize hrest : ((gather store).run ts).task t.caller = p at h
    cases h with
    | apart hp => exact place_of_prudent (hrest ▸ hp)
    | @took took id now k next hlast htook hheld hnext =>
      let found := ((gather store).run ts).store.read id
      have hstep : ((gather store).run (ts ++ [t])).task t.caller = next (.ok found) := by
        rw [run_concat, step_of_answer hrest rfl, task_assign_self]
      rw [hstep]
      obtain hp | ⟨r, next', hread, hnow, hmark, hnext'⟩ := hnext (.ok found)
      · exact .apart hp
      · rw [hmark]
        have hfound : found = some r := Except.ok.inj hread
        exact .looked (lately_own ts rfl) hlast htook hheld hfound hnow ⟨next, hrest⟩ hnext'
    | @looked took look id now r k next hlast hfirst htook hheld hread hnow hlook hnext =>
      obtain ⟨a, c', hanswer⟩ := exists_answer_update ((gather store).run ts) t r.marked
      rw [run_concat, step_of_answer hrest hanswer, task_assign_self]
      exact .apart (hnext a)
  · rw [run_concat, task_step_of_ne _ ht]
    exact h.other ht

theorem place_run (store : Store) (i : ι) (ts : List (Turn ι)) :
    Place store i ts (((gather store).run ts).task i) := by
  induction ts using List.reverseRecOn with
  | nil => exact .apart (.done _)
  | append_singleton ts t ih => exact place_concat ih t

end Places

/-- What becomes of a live record between the reading of a caller under the lock and the next turn of
that caller. -/
theorem stored_since {store : Store} {ts look : List (Turn ι)} (hlast : Lately i ts look)
    (hlook : ∃ next, ((gather store).run look).task i = .ask (.read id) next)
    (hheld : ((gather store).run look).holder = some i)
    (hr : ((gather store).run look).store.read id = some r) (hlive : r.isTerminal = false) :
    ((gather store).run ts).holder = some i ∧ ∃ u, ((gather store).run ts).store.read id = some u ∧
      u.isTerminal = false ∧ (u = r ∨ ∃ first t rest, ts = first ++ t :: rest ∧ look <+: first ∧
        t.caller ≠ i ∧ ((gather store).run first).writing? t.caller = some u) := by
  obtain ⟨t, after, rfl, rfl, hafter⟩ := hlast
  obtain ⟨next, htask⟩ := hlook
  let c := ((gather store).run look).step t
  have hstep : c = ((gather store).run look).assign t.caller (next (.ok (some r))) := by
    rw [← hr]
    exact step_of_answer htask rfl
  have hrun (us : List (Turn ι)) : (gather store).run (look ++ t :: us) = c.run us := by
    rw [run_append]
    rfl
  have hwatched : c.Watched := ((watched_gather store).run look).step t
  obtain ⟨hheld', u, hu, hulive, hlast⟩ := hwatched.stored_run (by rw [hstep]; exact hheld) hafter
    (by rw [hstep]; exact hr) hlive
  rw [hrun]
  refine ⟨hheld', u, hu, hulive, hlast.imp_right ?_⟩
  rintro ⟨first, w, rest, rfl, hw⟩
  refine ⟨look ++ t :: first, w, rest, by simp, List.prefix_append _ _, hafter w (by simp), ?_⟩
  rw [hrun]
  exact hw

/-- Who is about to write a marked record has looked at it in an expiry. -/
theorem looked_of_writing {store : Store} {ts : List (Turn ι)}
    (hwriting : ((gather store).run ts).writing? i = some v) (hmark : v.expired = true) :
    ∃ took look now k r next, Lately i ts look ∧ Lately i look took ∧
      ((gather store).run took).task i = expiry v.id now k ∧
      (∃ look', ((gather store).run look).task i = .ask (.read v.id) look') ∧
      ((gather store).run look).holder = some i ∧
      ((gather store).run look).store.read v.id = some r ∧ r.validity now = .timedOut ∧
      v = r.marked ∧ ((gather store).run ts).task i = .ask (.update v) next := by
  have hplace := place_run store i ts
  unfold writing? at hwriting
  split at hwriting
  · rename_i v' next htask
    cases hwriting
    rw [htask] at hplace
    generalize hp : Program.ask (Question.update v) next = p at hplace
    cases hplace with
    | apart hp' =>
      subst hp
      obtain ⟨hq, _⟩ | ⟨id, now, k, hexpiry, hk⟩ := hp'.ask_cases
      · rw [Question.marks, hmark] at hq
        cases hq
      · obtain ⟨look, hlock, _⟩ := expiry_eq id now hk
        rw [hlock] at hexpiry
        cases hexpiry
    | took => cases hp
    | @looked took look id now r k next' hlast hfirst htook hheld hread hnow hlook hnext =>
      cases hp
      have hid : r.marked.id = id := by rw [Record.marked_id, Roster.id_of_get? hread]
      rw [hid]
      exact ⟨took, look, now, k, r, _, hlast, hfirst, htook, hlook, hheld, hread, hnow, rfl, htask⟩
  · cases hwriting

/-- What is written over a live record is stored. -/
theorem read_step_of_update {next : Reply (.update v) → Op Unit} {u : Record}
    (hrest : c.task t.caller = .ask (.update v) next) (hu : c.store.read v.id = some u)
    (hlive : u.isTerminal = false) : (c.step t).store.read v.id = some v := by
  have hupdate := Store.update_ok_of_live (r := v) hu hlive
  have hanswer : c.answer t (.update v) =
      some (.ok (), { c with store := c.store.rewrite v }) := by
    simp only [answer, hupdate]
  have hstored := Store.read_update hupdate v.id
  rw [if_pos rfl] at hstored
  rw [step_of_answer hrest hanswer]
  exact hstored

/-- **An expiry marks what it read.** Any number of callers, each with requests of its own, one question
at a time in any order. Whenever a caller is about to write a record that is marked as expired, it is in
an expiry, of that session at some time `now`, in which it took the lock and then read the record. What it
read was what was stored at that moment, it was timed out at `now`, and it is what the caller writes with
the mark. So what was written before that reading and makes the session valid at `now` is not undone.

The record that is stored when the caller writes is live, and it is the one that was read, unless others
wrote over it in between: that takes no lock. The caller writes over theirs. -/
theorem expiry_marks_what_it_read {store : Store} {ts : List (Turn ι)}
    (hc : (gather store).run ts = c) (hwriting : c.writing? i = some v) (hmark : v.expired = true) :
    ∃ took look now k r u, Lately i ts look ∧ Lately i look took ∧
      ((gather store).run took).task i = expiry v.id now k ∧
      (∃ next, ((gather store).run look).task i = .ask (.read v.id) next) ∧
      ((gather store).run look).holder = some i ∧ c.holder = some i ∧
      ((gather store).run look).store.read v.id = some r ∧ r.validity now = .timedOut ∧ v = r.marked ∧
      c.store.read v.id = some u ∧ u.isTerminal = false ∧
      (u = r ∨ ∃ first t rest, ts = first ++ t :: rest ∧ look <+: first ∧ t.caller ≠ i ∧
        ((gather store).run first).writing? t.caller = some u) ∧
      ∀ t, t.caller = i → (c.step t).store.read v.id = some v := by
  subst hc
  obtain ⟨took, look, now, k, r, next, hlast, hfirst, htook, hlook, hheld, hread, hnow, hmarked, htask⟩ :=
    looked_of_writing hwriting hmark
  have hlive := Record.isTerminal_of_validity (Or.inr hnow)
  obtain ⟨hheld', u, hu, hulive, hwrote⟩ := stored_since hlast hlook hheld hread hlive
  refine ⟨took, look, now, k, r, u, hlast, hfirst, htook, hlook, hheld, hheld', hread, hnow, hmarked, hu,
    hulive, hwrote, ?_⟩
  rintro t rfl
  exact read_step_of_update htask hu hulive

end Steps

/-- A turn of a caller who sweeps. -/
def sweepTurn (now : Timestamp) : Turn Bool := { turnOf true now with request := .sweep }

def onlySession : Store := { Store.new {} with records := Roster.empty.put (.new "s" 1000 none 1800000) }

/-- The one is about to write its touch when the other begins to sweep and takes the session for timed
out. -/
def touchAhead : List (Turn Bool) :=
  List.replicate 5 (turnOf false 1800000) ++ List.replicate 4 (sweepTurn 1801001)

/-- The other takes the lock and reads the record, and then the touch is written. -/
def touchBetween : List (Turn Bool) :=
  touchAhead ++ [sweepTurn 1801001, sweepTurn 1801001, turnOf false 1800000]

theorem writing_touchBetween : ((gather onlySession).run touchBetween).writing? true =
    some { Record.new "s" 1000 none 1800000 with expired := true } := by decide +kernel

theorem read_touchBetween : ((gather onlySession).run touchBetween).store.read "s" =
    some { Record.new "s" 1000 none 1800000 with lastAccess := 1800000 } := by decide +kernel

/-- The sweep marks the record that it has read, and the touch that came in between is what it writes
over. -/
theorem expiry_marks_what_it_read_before_the_touch :
    ∃ v u, ((gather onlySession).run touchBetween).writing? true = some v ∧ v.expired = true ∧
      ((gather onlySession).run touchBetween).store.read v.id = some u ∧ u.lastAccess = 1800000 ∧
      ∃ look r now, Lately true touchBetween look ∧
        ((gather onlySession).run look).store.read v.id = some r ∧ r.validity now = .timedOut ∧
        v = r.marked ∧ ∃ first t rest, touchBetween = first ++ t :: rest ∧ look <+: first ∧
          ((gather onlySession).run first).writing? t.caller = some u := by
  obtain ⟨took, look, now, k, r, u, hlast, _, _, _, _, _, hread, hnow, hmarked, hstored, _, hwrote, _⟩ :=
    expiry_marks_what_it_read rfl writing_touchBetween rfl
  cases hstored.symm.trans read_touchBetween
  refine ⟨_, _, writing_touchBetween, rfl, hstored, rfl, look, r, now, hlast, hread, hnow, hmarked, ?_⟩
  obtain hsame | ⟨first, t, rest, hsplit, hfirst, _, hw⟩ := hwrote
  · have haccess : (1000 : Timestamp) = r.lastAccess := congrArg Record.lastAccess hmarked
    rw [← hsame] at haccess
    cases haccess
  · exact ⟨first, t, rest, hsplit, hfirst, hw⟩

/-- The touch went through, and the session is valid at the time of the sweep; the sweep marks it all the
same, and the last access is again that of the record which the sweep has read. -/
theorem touch_is_lost_between_reading_and_marking :
    (∃ k, ((gather onlySession).run touchAhead).task true = expiry "s" 1801001 k) ∧
    ∃ u v, ((gather onlySession).run touchBetween).task false = .done (.ok ()) ∧
      ((gather onlySession).run touchBetween).store.read "s" = some u ∧ u.lastAccess = 1800000 ∧
      u.validity 1801001 = .valid ∧
      ((gather onlySession).run touchBetween).writing? true = some v ∧ v.expired = true ∧
      ((gather onlySession).run (touchBetween ++ [sweepTurn 1801001])).store.read "s" = some v ∧
      v.lastAccess = 1000 := by
  have hsweep : ((gather onlySession).run touchAhead).task true = Manager.discard (do
      let t ← sweepAll 1801001 [Record.new "s" 1000 none 1800000] ⟨0, 0⟩
      count .sweeps
      log .info t.text
      return t.marked) := rfl
  have hdue : (Record.new "s" 1000 none 1800000).validity 1801001 = .timedOut := by decide +kernel
  obtain ⟨k, hk⟩ := exists_sweepAll_eq hdue [] ⟨0, 0⟩
  rw [hk, Manager.discard, expiry_bind, expiry_bind] at hsweep
  exact ⟨⟨_, hsweep⟩, _, _, rfl, read_touchBetween, rfl, by decide +kernel, writing_touchBetween, rfl,
    by decide +kernel, rfl⟩

end Crowd
end Sessions
