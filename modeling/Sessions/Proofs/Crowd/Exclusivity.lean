import Mathlib.Logic.Function.Basic
import Sessions.Proofs.Crowd.Protocol
import Sessions.Proofs.Store.Contents

/-!
# Sessions.Proofs.Crowd.Exclusivity

Any number of callers of one manager, in any order of their questions: a session ends once.

The lock alone does not see to it, since those who only use a session do not take it, and write
back what they read before. The store alone does not either, since it takes any record that ended.
Together they do: an end is written by the one who has the lock, over a record that was live when it
was read under the lock. Until then no other end can come between, for want of the lock, and behind
it no live record is taken any more, by the guard of the store.

* `Sound` is the invariant, over the phase of each caller and the fate of each session.
* `Sound.exists_answer`: every answer to a question that is in order preserves it.
* `ends_are_exclusive`: what holds of any run.
-/

namespace Sessions
namespace Crowd

open Manager

section Invariant

variable {ι : Type} {c c' : Crowd ι} {i : ι} {id : Id} {r v : Record} {φ : ι → Phase}

/-- The session ended as this record, which is in the store still or is gone from it. -/
structure Closed (c : Crowd ι) (id : Id) (r : Record) : Prop where
  ended : r.isTerminal = true
  known : id ∈ c.known
  content : c.store.read id = some r ∨ c.store.read id = none

/-- How far the end of a session has come, under the eyes of the crowd. -/
inductive Fate (ι : Type) where
  | untold
  /-- The caller wrote the record and has not announced it yet. -/
  | owed (i : ι) (r : Record)
  | told (i : ι) (r : Record)

def Fate.Of (c : Crowd ι) (id : Id) : Fate ι → Prop
  | untold => c.endsOf id = []
  | owed _ r => c.Closed id r ∧ c.endsOf id = []
  | told i r => c.Closed id r ∧ ∃ ev : Event, ev.Ends r ∧ c.endsOf id = [⟨i, ev, r⟩]

/-- What the phase of a caller means: under the lock it holds it; what it read live there is live
still; and what it wrote there it is to announce. -/
structure Stands (c : Crowd ι) (fate : Id → Fate ι) (i : ι) (ψ : Phase) : Prop where
  holder : ψ.holds ↔ c.holder = some i
  seen : ∀ id, ψ = .locked (some id) → ∃ r, c.store.read id = some r ∧ r.isTerminal = false
  owing : ∀ r, ψ = .wrote r ∨ ψ = .owing r → fate r.id = .owed i r

/-- The invariant: every caller stands as its phase says, and every session has its fate. -/
structure Sound (φ : ι → Phase) (fate : Id → Fate ι) (c : Crowd ι) : Prop where
  stands : ∀ i, Stands c fate i (φ i)
  known : ∀ id r, c.store.read id = some r → id ∈ c.known
  fates : ∀ id, (fate id).Of c id

variable {fate : Id → Fate ι}

theorem Closed.not_live (h : c.Closed id r) (hv : c.store.read id = some v) :
    v.isTerminal = true := by
  rcases h.content with hr | hnone
  · rw [hr, Option.some.injEq] at hv
    exact hv ▸ h.ended
  · rw [hnone] at hv
    cases hv

/-! ## Changes of the content -/

theorem Closed.create (h : c.Closed id r) {store : Store} {lines : List LogLine}
    (hcreate : c.store.create v = .ok (store, lines)) (hnew : v.id ∉ c.known) :
    Closed { c with store, known := v.id :: c.known } id r := by
  obtain ⟨_, _, hothers⟩ := Store.read_create hcreate
  refine ⟨h.ended, List.mem_cons_of_mem _ h.known, ?_⟩
  have hid : id ≠ v.id := fun heq => hnew (heq ▸ h.known)
  rcases hothers id hid with hsame | ⟨_, hgone, _⟩
  · exact h.content.imp hsame.trans hsame.trans
  · exact Or.inr hgone

/-- No record of the session is taken any more, other than one that ended. -/
theorem Closed.update (h : c.Closed id r) {store : Store} (hupdate : c.store.update v = .ok store)
    (hv : v.id ≠ id ∨ v.isTerminal = false) : Closed { c with store } id r := by
  have hid : id ≠ v.id := by
    rcases hv with hne | hlive
    · exact hne.symm
    · rintro rfl
      obtain ⟨⟨stored, hstored⟩, _⟩ := Store.update_eq_ok hupdate
      rw [Store.isTerminal_of_update hupdate hstored (h.not_live hstored)] at hlive
      cases hlive
  have hsame := Store.read_update hupdate id
  rw [if_neg hid] at hsame
  exact ⟨h.ended, h.known, h.content.imp hsame.trans hsame.trans⟩

theorem Fate.Of.mono {f : Fate ι} (h : f.Of c id) (hends : c'.endsOf id = c.endsOf id)
    (hclosed : ∀ r, c.Closed id r → c'.Closed id r) : f.Of c' id := by
  cases f with
  | untold => exact hends.trans h
  | owed i r => exact ⟨hclosed r h.1, hends.trans h.2⟩
  | told i r =>
    obtain ⟨hr, ev, hev, hall⟩ := h
    exact ⟨hclosed r hr, ev, hev, hends.trans hall⟩

theorem endsOf_announce (c : Crowd ι) (n : Notice ι) (id : Id) :
    endsOf { c with notices := c.notices ++ [n] } id =
      c.endsOf id ++ if n.event ≠ .start ∧ n.record.id = id then [n] else [] := by
  simp only [endsOf, List.filter_append, List.filter_cons, List.filter_nil, decide_eq_true_eq]

namespace Sound

/-- Another content in which every live session is still live and every one that ended is as it
was. -/
theorem content (h : Sound φ fate c) {store : Store} {known : List Id}
    (hclosed : ∀ id r, c.Closed id r → Closed { c with store, known } id r)
    (hlive : ∀ id, (∃ r, c.store.read id = some r ∧ r.isTerminal = false) →
      ∃ r, store.read id = some r ∧ r.isTerminal = false)
    (hknown : ∀ id r, store.read id = some r → id ∈ known) :
    Sound φ fate { c with store, known } where
  stands i := ⟨(h.stands i).holder, fun id hi => hlive id ((h.stands i).seen id hi),
    (h.stands i).owing⟩
  known := hknown
  fates id := (h.fates id).mono rfl (hclosed id)

theorem create (h : Sound φ fate c) {store : Store} {lines : List LogLine}
    (hcreate : c.store.create v = .ok (store, lines)) (hnew : v.id ∉ c.known) :
    Sound φ fate { c with store, known := v.id :: c.known } := by
  obtain ⟨_, _, hothers⟩ := Store.read_create hcreate
  refine h.content (fun id r hr => hr.create hcreate hnew) ?_ ?_
  · rintro id ⟨r, hr, hlive⟩
    have hid : id ≠ v.id := fun heq => hnew (heq ▸ h.known id r hr)
    rcases hothers id hid with hsame | ⟨_, _, w, hw, hend⟩
    · exact ⟨r, hsame.trans hr, hlive⟩
    · rw [hr, Option.some.injEq] at hw
      rw [hw, hend] at hlive
      cases hlive
  · intro id r hr
    by_cases hid : id = v.id
    · exact hid ▸ List.mem_cons_self
    · rcases hothers id hid with hsame | ⟨_, hgone, _⟩
      · exact List.mem_cons_of_mem _ (h.known id r (hsame ▸ hr))
      · rw [hgone] at hr
        cases hr

theorem known_update (h : Sound φ fate c) {store : Store} (hupdate : c.store.update v = .ok store)
    (hr : store.read id = some r) : id ∈ c.known := by
  rw [Store.read_update hupdate id] at hr
  split at hr
  · rename_i hid
    obtain ⟨⟨stored, hstored⟩, _⟩ := Store.update_eq_ok hupdate
    exact hid ▸ h.known v.id stored hstored
  · exact h.known id r hr

/-- A use of a session, written back without the lock. -/
theorem update_live (h : Sound φ fate c) {store : Store} (hupdate : c.store.update v = .ok store)
    (hv : v.isTerminal = false) : Sound φ fate { c with store } := by
  refine h.content (fun id r hr => hr.update hupdate (Or.inr hv)) ?_
    fun _ _ => h.known_update hupdate
  rintro id ⟨r, hr, hlive⟩
  rw [Store.read_update hupdate id]
  split
  · exact ⟨v, rfl, hv⟩
  · exact ⟨r, hr, hlive⟩

/-- Under the lock there is nobody but the holder. -/
theorem not_holds (h : Sound φ fate c) (hi : (φ i).holds) {j : ι} (hj : j ≠ i) :
    ¬(φ j).holds := by
  rw [(h.stands j).holder, (h.stands i).holder.1 hi, Option.some.injEq]
  exact hj.symm

theorem announce_start (h : Sound φ fate c) (i : ι) (r : Record) :
    Sound φ fate { c with notices := c.notices ++ [⟨i, .start, r⟩] } where
  stands j := ⟨(h.stands j).holder, (h.stands j).seen, (h.stands j).owing⟩
  known := h.known
  fates id := by
    refine (h.fates id).mono ?_ fun r hr => ⟨hr.ended, hr.known, hr.content⟩
    simp [endsOf_announce]

end Sound

end Invariant

/-! ## Answers of the store -/

section Answers

variable {ι : Type} {c c' : Crowd ι} {t : Turn ι} {r : Record}

theorem answer_create {a : Except Fault Unit} (h : c.answer t (.create r) = some (a, c')) :
    (∃ f, c.store.create r = .error f ∧ a = .error f ∧ c' = c) ∨
    ∃ store lines, c.store.create r = .ok (store, lines) ∧ a = .ok () ∧
      c' = { c with store, known := r.id :: c.known } := by
  simp only [answer] at h
  cases hcreate : c.store.create r with
  | error f =>
    rw [hcreate] at h
    cases h
    exact Or.inl ⟨f, rfl, rfl, rfl⟩
  | ok p =>
    rw [hcreate] at h
    cases h
    exact Or.inr ⟨p.1, p.2, rfl, rfl, rfl⟩

theorem answer_update {a : Except Fault Unit} (h : c.answer t (.update r) = some (a, c')) :
    (∃ f, c.store.update r = .error f ∧ a = .error f ∧ c' = c) ∨
    ∃ store, c.store.update r = .ok store ∧ a = .ok () ∧ c' = { c with store } := by
  simp only [answer] at h
  cases hupdate : c.store.update r with
  | error f =>
    rw [hupdate] at h
    cases h
    exact Or.inl ⟨f, rfl, rfl, rfl⟩
  | ok store =>
    rw [hupdate] at h
    cases h
    exact Or.inr ⟨store, rfl, rfl, rfl⟩

end Answers

/-! ## Changes of the phase -/

namespace Sound

variable {ι : Type} [DecidableEq ι] {c c' : Crowd ι} {i : ι} {id : Id} {r v : Record}
  {φ : ι → Phase} {ψ : Phase} {fate fate' : Id → Fate ι}

/-- One caller comes to another phase, the others stand as before. -/
theorem move (h : Sound φ fate c) (hi : Stands c' fate' i ψ)
    (hothers : ∀ j, j ≠ i → Stands c fate j (φ j) → Stands c' fate' j (φ j))
    (hknown : ∀ id r, c'.store.read id = some r → id ∈ c'.known)
    (hfates : ∀ id, (fate' id).Of c' id) : Sound (Function.update φ i ψ) fate' c' where
  stands := (Function.forall_update_iff φ fun j ψ => Stands c' fate' j ψ).2
    ⟨hi, fun j hj => hothers j hj (h.stands j)⟩
  known := hknown
  fates := hfates

theorem stay (h : Sound φ fate c) (hi : φ i = ψ) : Sound (Function.update φ i ψ) fate c := by
  rwa [← hi, Function.update_eq_self]

theorem look (h : Sound φ fate c) {seen seen' : Option Id} (hi : φ i = .locked seen)
    (hseen : ∀ id, seen' = some id → ∃ r, c.store.read id = some r ∧ r.isTerminal = false) :
    Sound (Function.update φ i (.locked seen')) fate c := by
  refine h.move ⟨?_, ?_, by simp⟩ (fun _ _ hj => hj) h.known h.fates
  · rw [← (h.stands i).holder, hi]
    rfl
  · rintro id hid
    exact hseen id (by simpa using hid)

theorem lock (h : Sound φ fate c) (hfree : c.holder = none) :
    Sound (Function.update φ i (.locked none)) fate { c with holder := some i } := by
  refine h.move ⟨by simp [Phase.holds], by simp, by simp⟩ ?_ h.known fun id => (h.fates id).mono rfl
    fun r hr => ⟨hr.ended, hr.known, hr.content⟩
  intro j hj hstands
  refine ⟨?_, hstands.seen, hstands.owing⟩
  rw [hstands.holder, hfree]
  simp [hj.symm]

theorem unlock (h : Sound φ fate c) (hi : (φ i).holds)
    (hψ : ψ = .free ∨ ∃ r, ψ = .owing r ∧ φ i = .wrote r) :
    Sound (Function.update φ i ψ) fate { c with holder := none } := by
  have hheld := (h.stands i).holder.1 hi
  refine h.move ⟨?_, ?_, ?_⟩ ?_ h.known fun id => (h.fates id).mono rfl
    fun r hr => ⟨hr.ended, hr.known, hr.content⟩
  · rcases hψ with rfl | ⟨r, rfl, _⟩ <;> simp [Phase.holds]
  · rcases hψ with rfl | ⟨r, rfl, _⟩ <;> simp
  · rcases hψ with rfl | ⟨r, rfl, hwrote⟩
    · simp
    · intro r' hr'
      have heq : r = r' := by simpa using hr'
      exact heq ▸ (h.stands i).owing r (Or.inl hwrote)
  · intro j hj hstands
    refine ⟨?_, hstands.seen, hstands.owing⟩
    simp [h.not_holds hi hj]

/-- The one transition to an ended record: by the holder of the lock, over a live record. -/
theorem mark (h : Sound φ fate c) (hi : φ i = .locked (some v.id)) (hend : v.isTerminal = true)
    {store : Store} (hupdate : c.store.update v = .ok store) :
    Sound (Function.update φ i (.wrote v)) (Function.update fate v.id (.owed i v))
      { c with store } := by
  obtain ⟨w, hw, hlive⟩ := (h.stands i).seen v.id hi
  have hopen : ∀ id r, c.Closed id r → id ≠ v.id := by
    rintro id r hr rfl
    rw [hr.not_live hw] at hlive
    cases hlive
  have huntold : fate v.id = .untold := by
    have hfate := h.fates v.id
    cases hf : fate v.id with
    | untold => rfl
    | owed j r =>
      rw [hf] at hfate
      exact absurd rfl (hopen _ r hfate.1)
    | told j r =>
      rw [hf] at hfate
      exact absurd rfl (hopen _ r hfate.1)
  have hclosed : ∀ id r, c.Closed id r → Closed { c with store } id r := fun id r hr =>
    hr.update hupdate (Or.inl (hopen id r hr).symm)
  have hheld : (φ i).holds := by rw [hi]; trivial
  refine h.move ⟨?_, by simp, ?_⟩ ?_ (fun _ _ => h.known_update hupdate) ?_
  · rw [← (h.stands i).holder, hi]
    rfl
  · intro r hr
    have heq : v = r := by simpa using hr
    rw [← heq, Function.update_self]
  · intro j hj hstands
    refine ⟨hstands.holder, ?_, ?_⟩
    · intro id hlocked
      refine absurd ?_ (h.not_holds hheld hj)
      rw [hlocked]
      trivial
    · intro r hr
      have howed := hstands.owing r hr
      have hid : r.id ≠ v.id := by
        intro heq
        rw [heq, huntold] at howed
        cases howed
      rw [Function.update_of_ne hid, howed]
  · refine (Function.forall_update_iff fate fun id f => f.Of { c with store } id).2 ⟨?_, ?_⟩
    · have hnone := h.fates v.id
      rw [huntold] at hnone
      have hread := Store.read_update hupdate v.id
      rw [if_pos rfl] at hread
      exact ⟨⟨hend, h.known _ w hw, Or.inl hread⟩, hnone⟩
    · exact fun id _ => (h.fates id).mono rfl (hclosed id)

theorem announce (h : Sound φ fate c) (hi : φ i = .owing r) {ev : Event} (hev : ev.Ends r) :
    Sound (Function.update φ i .free) (Function.update fate r.id (.told i r))
      { c with notices := c.notices ++ [⟨i, ev, r⟩] } := by
  have howed := (h.stands i).owing r (Or.inr hi)
  refine h.move ⟨?_, by simp, by simp⟩ ?_ h.known ?_
  · rw [← (h.stands i).holder, hi]
    rfl
  · intro j hj hstands
    refine ⟨hstands.holder, hstands.seen, fun r' hr' => ?_⟩
    have howed' := hstands.owing r' hr'
    have hid : r'.id ≠ r.id := by
      intro heq
      rw [heq, howed, Fate.owed.injEq] at howed'
      exact hj howed'.1.symm
    rw [Function.update_of_ne hid, howed']
  · refine (Function.forall_update_iff fate fun id f =>
      f.Of { c with notices := c.notices ++ [⟨i, ev, r⟩] } id).2 ⟨?_, ?_⟩
    · have hof := h.fates r.id
      rw [howed] at hof
      refine ⟨⟨hof.1.ended, hof.1.known, hof.1.content⟩, ev, hev, ?_⟩
      simp [endsOf_announce, hof.2, hev.ne_start]
    · intro id hid
      refine (h.fates id).mono ?_ fun r hr => ⟨hr.ended, hr.known, hr.content⟩
      simp [endsOf_announce, hid.symm]

/-! ## Every step -/

variable {t : Turn ι} {q : Question} {a : Reply q}

theorem exists_answer_free (h : Sound φ fate c) (hφ : φ t.caller = .free)
    (hq : Phase.free.allows true q) (hanswer : c.answer t q = some (a, c'))
    (hfresh : c'.known.Nodup) :
    ∃ fate', Sound (Function.update φ t.caller (Phase.free.behind q a)) fate' c' := by
  cases q with
  | create r =>
    obtain ⟨f, _, rfl, rfl⟩ | ⟨store, lines, hcreate, rfl, rfl⟩ := answer_create hanswer
    · exact ⟨fate, h.stay hφ⟩
    · exact ⟨fate, (h.create hcreate (List.nodup_cons.1 hfresh).1).stay hφ⟩
  | update r =>
    obtain ⟨f, _, rfl, rfl⟩ | ⟨store, hupdate, rfl, rfl⟩ := answer_update hanswer
    · exact ⟨fate, h.stay hφ⟩
    · exact ⟨fate, (h.update_live hupdate hq.2).stay hφ⟩
  | announce ev r =>
    cases hq
    cases hanswer
    exact ⟨fate, (h.announce_start t.caller r).stay hφ⟩
  | lock =>
    simp only [answer] at hanswer
    split at hanswer
    · rename_i hnone
      cases hanswer
      exact ⟨fate, h.lock hnone⟩
    · cases hanswer
  | unlock => cases hq
  | _ =>
    cases hanswer
    exact ⟨fate, h.stay hφ⟩

theorem exists_answer_locked {seen : Option Id} (h : Sound φ fate c)
    (hφ : φ t.caller = .locked seen) (hq : (Phase.locked seen).allows true q)
    (hanswer : c.answer t q = some (a, c')) :
    ∃ fate', Sound (Function.update φ t.caller ((Phase.locked seen).behind q a)) fate' c' := by
  cases q with
  | read id =>
    cases hanswer
    cases hread : c.store.read id with
    | none => exact ⟨fate, h.look hφ (by simp)⟩
    | some r =>
      refine ⟨fate, h.look hφ ?_⟩
      intro id' hid'
      split at hid'
      · cases hid'
      · rename_i hlive
        cases hid'
        rw [Roster.id_of_get? hread]
        exact ⟨r, hread, Bool.eq_false_iff.2 hlive⟩
  | clock =>
    cases hanswer
    exact ⟨fate, h.stay hφ⟩
  | update r =>
    obtain ⟨rfl, hend⟩ := hq
    obtain ⟨f, _, rfl, rfl⟩ | ⟨store, hupdate, rfl, rfl⟩ := answer_update hanswer
    · exact ⟨fate, h.stay hφ⟩
    · exact ⟨_, h.mark hφ hend hupdate⟩
  | unlock =>
    cases hanswer
    exact ⟨fate, h.unlock (by rw [hφ]; trivial) (Or.inl rfl)⟩
  | _ => cases hq

theorem exists_answer_wrote (h : Sound φ fate c) (hφ : φ t.caller = .wrote r)
    (hq : (Phase.wrote r).allows true q) (hanswer : c.answer t q = some (a, c')) :
    ∃ fate', Sound (Function.update φ t.caller ((Phase.wrote r).behind q a)) fate' c' := by
  cases q with
  | count n =>
    cases hanswer
    exact ⟨fate, h.stay hφ⟩
  | unlock =>
    cases hanswer
    exact ⟨fate, h.unlock (by rw [hφ]; trivial) (Or.inr ⟨r, rfl, hφ⟩)⟩
  | _ => cases hq

theorem exists_answer_owing (h : Sound φ fate c) (hφ : φ t.caller = .owing r)
    (hq : (Phase.owing r).allows true q) (hanswer : c.answer t q = some (a, c')) :
    ∃ fate', Sound (Function.update φ t.caller ((Phase.owing r).behind q a)) fate' c' := by
  cases q with
  | announce ev r' =>
    obtain ⟨rfl, hev⟩ := hq
    cases hanswer
    exact ⟨_, h.announce hφ hev⟩
  | count n =>
    cases hanswer
    exact ⟨fate, h.stay hφ⟩
  | log level message =>
    cases hanswer
    exact ⟨fate, h.stay hφ⟩
  | _ => cases hq

/-- Whatever is answered to a question that is in order, everybody stands as the phases say then. -/
theorem exists_answer (h : Sound φ fate c) (hq : (φ t.caller).allows true q)
    (hanswer : c.answer t q = some (a, c')) (hfresh : c'.known.Nodup) :
    ∃ fate', Sound (Function.update φ t.caller ((φ t.caller).behind q a)) fate' c' := by
  cases hφ : φ t.caller with
  | free => exact h.exists_answer_free hφ (hφ ▸ hq) hanswer hfresh
  | locked seen => exact h.exists_answer_locked hφ (hφ ▸ hq) hanswer
  | wrote r => exact h.exists_answer_wrote hφ (hφ ▸ hq) hanswer
  | owing r => exact h.exists_answer_owing hφ (hφ ▸ hq) hanswer

end Sound

section Runs

variable {ι : Type} {c c' : Crowd ι} {t : Turn ι} {q : Question} {a : Reply q} {id : Id}
  {r v : Record} {φ : ι → Phase} {fate : Id → Fate ι}

theorem task_answer (h : c.answer t q = some (a, c')) : c'.task = c.task := by
  unfold answer at h
  split at h
  all_goals first
    | (cases h; rfl)
    | (split at h <;> cases h <;> rfl)

/-- What an answer does to the content of the store. -/
theorem content_answer (h : c.answer t q = some (a, c')) :
    (c'.store = c.store ∧ c'.known = c.known) ∨
    (∃ r lines, q = .create r ∧ c.store.create r = .ok (c'.store, lines) ∧
      c'.known = r.id :: c.known) ∨
    ∃ r, q = .update r ∧ c.store.update r = .ok c'.store ∧ c'.known = c.known := by
  cases q with
  | create r =>
    obtain ⟨_, _, _, rfl⟩ | ⟨store, lines, hcreate, _, rfl⟩ := answer_create h
    · exact Or.inl ⟨rfl, rfl⟩
    · exact Or.inr (Or.inl ⟨r, lines, rfl, hcreate, rfl⟩)
  | update r =>
    obtain ⟨_, _, _, rfl⟩ | ⟨store, hupdate, _, rfl⟩ := answer_update h
    · exact Or.inl ⟨rfl, rfl⟩
    · exact Or.inr (Or.inr ⟨r, rfl, hupdate, rfl⟩)
  | lock =>
    simp only [answer] at h
    split at h <;> cases h
    exact Or.inl ⟨rfl, rfl⟩
  | _ =>
    cases h
    exact Or.inl ⟨rfl, rfl⟩

theorem known_answer (h : c.answer t q = some (a, c')) : c.known <:+ c'.known := by
  rcases content_answer h with ⟨_, hknown⟩ | ⟨r, _, _, _, hknown⟩ | ⟨_, _, _, hknown⟩
  · exact hknown ▸ List.suffix_refl _
  · exact hknown ▸ List.suffix_cons r.id c.known
  · exact hknown ▸ List.suffix_refl _

/-- What a session ended as stays its last record, as long as no session comes into being twice. -/
theorem Closed.answer (h : c.Closed id r) (hsound : Sound φ fate c)
    (hq : (φ t.caller).allows true q) (hanswer : c.answer t q = some (a, c'))
    (hfresh : c'.known.Nodup) : c'.Closed id r := by
  rcases content_answer hanswer with ⟨hstore, hknown⟩ | ⟨v, lines, rfl, hcreate, hknown⟩ |
    ⟨v, rfl, hupdate, hknown⟩
  · exact ⟨h.ended, hknown ▸ h.known, by rw [hstore]; exact h.content⟩
  · rw [hknown, List.nodup_cons] at hfresh
    have hclosed := h.create hcreate hfresh.1
    exact ⟨h.ended, hknown ▸ hclosed.known, hclosed.content⟩
  · have hv : v.id ≠ id ∨ v.isTerminal = false := by
      cases hφ : φ t.caller with
      | free =>
        rw [hφ] at hq
        exact Or.inr hq.2
      | locked seen =>
        rw [hφ] at hq
        obtain ⟨w, hw, hlive⟩ := (hsound.stands t.caller).seen v.id (by rw [hφ, hq.1])
        refine Or.inl ?_
        rintro rfl
        rw [h.not_live hw] at hlive
        cases hlive
      | wrote w => rw [hφ] at hq; cases hq
      | owing w => rw [hφ] at hq; cases hq
    have hclosed := h.update hupdate hv
    exact ⟨h.ended, hknown ▸ h.known, hclosed.content⟩

/-- There are phases and fates to which everything fits: the crowd as it is, and what is left of each
request. -/
def Lawful (c : Crowd ι) : Prop :=
  ∃ φ fate, Sound φ fate c ∧ ∀ i, Keeps true (φ i) (c.task i) fun ψ _ => ψ = .free

theorem lawful_gather (store : Store) : (gather store : Crowd ι).Lawful := by
  refine ⟨fun _ => .free, fun _ => .untold, ⟨fun i => ⟨?_, by simp, by simp⟩, ?_, fun _ => rfl⟩,
    fun _ => rfl⟩
  · simp [Phase.holds, gather]
  · intro id r hr
    rw [← Roster.id_of_get? hr]
    exact List.mem_map_of_mem (Roster.mem_of_get? hr)

variable [DecidableEq ι]

theorem known_step (c : Crowd ι) (t : Turn ι) : c.known <:+ (c.step t).known := by
  unfold step
  split
  · exact List.suffix_refl _
  · split
    · rename_i hanswer
      have hknown := known_answer hanswer
      exact hknown
    · exact List.suffix_refl _

theorem known_run (c : Crowd ι) (ts : List (Turn ι)) : c.known <:+ (c.run ts).known := by
  induction ts generalizing c with
  | nil => exact List.suffix_refl _
  | cons t ts ih => exact (known_step c t).trans (ih (c.step t))

theorem Sound.assign (h : Sound φ fate c) (i : ι) (p : Op Unit) : Sound φ fate (c.assign i p) where
  stands j := ⟨(h.stands j).holder, (h.stands j).seen, (h.stands j).owing⟩
  known := h.known
  fates id := (h.fates id).mono rfl fun _ hr => ⟨hr.ended, hr.known, hr.content⟩

theorem keeps_assign {i : ι} {p : Op Unit}
    (htasks : ∀ j, j ≠ i → Keeps true (φ j) (c.task j) fun ψ _ => ψ = .free)
    (hp : Keeps true (φ i) p fun ψ _ => ψ = .free) (j : ι) :
    Keeps true (φ j) ((c.assign i p).task j) fun ψ _ => ψ = .free := by
  by_cases hj : j = i
  · subst hj
    simpa [Crowd.assign] using hp
  · simpa [Crowd.assign, hj] using htasks j hj

theorem Lawful.step (h : c.Lawful) (hfresh : (c.step t).known.Nodup) : (c.step t).Lawful := by
  obtain ⟨φ, fate, hsound, htasks⟩ := h
  have htask := htasks t.caller
  unfold Crowd.step at hfresh ⊢
  cases hrest : c.task t.caller with
  | done x =>
    rw [hrest] at htask
    have hφ : φ t.caller = .free := htask
    refine ⟨φ, fate, hsound.assign _ _, keeps_assign (fun j _ => htasks j) ?_⟩
    rw [hφ]
    exact tidy_request t.request
  | ask q next =>
    rw [hrest] at htask
    obtain ⟨hallows, _, hnext⟩ := htask
    simp only [hrest] at hfresh ⊢
    cases hanswer : c.answer t q with
    | none => exact ⟨φ, fate, hsound, htasks⟩
    | some p =>
      obtain ⟨a, c'⟩ := p
      simp only [hanswer] at hfresh ⊢
      obtain ⟨fate', hsound'⟩ := hsound.exists_answer hallows hanswer hfresh
      refine ⟨_, fate', hsound'.assign _ _, keeps_assign (fun j hj => ?_) ?_⟩
      · rw [Function.update_of_ne hj, task_answer hanswer]
        exact htasks j
      · rw [Function.update_self]
        exact hnext a

theorem Closed.step (h : c.Closed id r) (hlawful : c.Lawful) (hfresh : (c.step t).known.Nodup) :
    (c.step t).Closed id r := by
  obtain ⟨φ, fate, hsound, htasks⟩ := hlawful
  have htask := htasks t.caller
  unfold Crowd.step at hfresh ⊢
  cases hrest : c.task t.caller with
  | done x => exact ⟨h.ended, h.known, h.content⟩
  | ask q next =>
    rw [hrest] at htask
    simp only [hrest] at hfresh ⊢
    cases hanswer : c.answer t q with
    | none => exact h
    | some p =>
      simp only [hanswer] at hfresh ⊢
      have hclosed := h.answer hsound htask.1 hanswer hfresh
      exact ⟨hclosed.ended, hclosed.known, hclosed.content⟩

theorem Lawful.run {ts : List (Turn ι)} (h : c.Lawful) (hfresh : (c.run ts).known.Nodup) :
    (c.run ts).Lawful ∧ ∀ id r, c.Closed id r → (c.run ts).Closed id r := by
  induction ts generalizing c with
  | nil => exact ⟨h, fun _ _ hr => hr⟩
  | cons t ts ih =>
    have hnext : (c.step t).known.Nodup := hfresh.sublist (known_run (c.step t) ts).sublist
    obtain ⟨hlast, hclosed⟩ := ih (h.step hnext) hfresh
    exact ⟨hlast, fun id r hr => hclosed id r (hr.step h hnext)⟩

/-- Who writes back a record of a session that ended is refused, and its request fails. -/
theorem Lawful.exists_refusal (h : c.Lawful) (hclosed : c.Closed id r)
    (hwriting : c.writing? t.caller = some v) (hid : v.id = id) :
    ∃ f, c.store.update v = .error f ∧ (c.step t).task t.caller = .done (.error f) ∧
      (c.step t).store = c.store := by
  obtain ⟨φ, fate, hsound, htasks⟩ := h
  have htask := htasks t.caller
  unfold writing? at hwriting
  split at hwriting
  · rename_i v' next hrest
    cases hwriting
    rw [hrest] at htask
    obtain ⟨hallows, hgives, _⟩ := htask
    cases hφ : φ t.caller with
    | free =>
      rw [hφ] at hallows hgives
      obtain ⟨f, hf⟩ : ∃ f, c.store.update v = .error f := by
        rcases hclosed.content with hr | hnone
        · obtain ⟨f, _, hf⟩ := Store.exists_update_eq_error (hid ▸ hr) hclosed.ended hallows.2
          exact ⟨f, hf⟩
        · exact ⟨.unknown v.id, by simp [Store.update, hid, hnone]⟩
      refine ⟨f, hf, ?_, ?_⟩
      · simpa [Crowd.step, hrest, Crowd.answer, hf, Crowd.assign] using hgives f
      · simp [Crowd.step, hrest, Crowd.answer, hf, Crowd.assign]
    | locked seen =>
      rw [hφ] at hallows
      obtain ⟨w, hw, hlive⟩ := (hsound.stands t.caller).seen v.id (by rw [hφ, hallows.1])
      rw [hclosed.not_live (hid ▸ hw)] at hlive
      cases hlive
    | wrote w => rw [hφ] at hallows; cases hallows
    | owing w => rw [hφ] at hallows; cases hallows
  · cases hwriting

/-- **Ends are exclusive.** Any number of callers, each with requests of its own, one question at a
time in any order, in surroundings that answer whatever they like, but never give an id twice. Take
any moment of a run and any later one.

A record that had ended at the first moment is unchanged at the second one, unless it is gone to make
room; and whoever is then about to write a record of that session is refused by the store, fails with
the fault of the refusal, and changes nothing.

Of the end of a session at most one caller has issued at most one notification; that is of the kind
in which the record ended that it shows, and this is the one that is stored, if any is. -/
theorem ends_are_exclusive {store : Store} {before after : List (Turn ι)}
    (hc : (gather store).run before = c) (hc' : c.run after = c') (hfresh : c'.known.Nodup) :
    (∀ id r, c.store.read id = some r → r.isTerminal = true →
      (c'.store.read id = some r ∨ c'.store.read id = none) ∧
      ∀ (t : Turn ι) v, c'.writing? t.caller = some v → v.id = id →
        ∃ f, c'.store.update v = .error f ∧ (c'.step t).task t.caller = .done (.error f) ∧
          (c'.step t).store = c'.store) ∧
    ∀ id, c'.endsOf id = [] ∨ ∃ n, c'.endsOf id = [n] ∧ n.event.Ends n.record ∧
      ∀ r, c'.store.read id = some r → r = n.record := by
  subst hc hc'
  have hbefore : ((gather store : Crowd ι).run before).known.Nodup :=
    hfresh.sublist (known_run _ after).sublist
  have hfirst := ((lawful_gather store).run hbefore).1
  obtain ⟨hlawful, hclosed⟩ := hfirst.run hfresh
  refine ⟨fun id r hr hend => ?_, fun id => ?_⟩
  · obtain ⟨_, _, hsound, _⟩ := hfirst
    have hlast := hclosed id r ⟨hend, hsound.known id r hr, Or.inl hr⟩
    exact ⟨hlast.content, fun t v hwriting hid => hlawful.exists_refusal hlast hwriting hid⟩
  · obtain ⟨_, fate, hsound, _⟩ := hlawful
    have hfate := hsound.fates id
    cases hf : fate id with
    | untold =>
      rw [hf] at hfate
      exact Or.inl hfate
    | owed i r =>
      rw [hf] at hfate
      exact Or.inl hfate.2
    | told i r =>
      rw [hf] at hfate
      obtain ⟨hr, ev, hev, hends⟩ := hfate
      refine Or.inr ⟨_, hends, hev, fun v hv => ?_⟩
      rcases hr.content with hstored | hnone
      · exact Option.some.inj (hv.symm.trans hstored)
      · rw [hnone] at hv
        cases hv

end Runs

/-- A turn of one of two callers: one touches the session, the other stops it. -/
def turnOf (stops : Bool) (now : Timestamp) : Turn Bool where
  caller := stops
  request := .call "s" ⟨none⟩ (if stops then .stop else .touch)
  now := now
  id := "t"
  verdict := .ok ()
  autoCreate := true
  timeout := 1800000

/-- The one reads the session and is about to write it back when the other begins, stops the session
and announces it. -/
def stoppedBetween : Crowd Bool :=
  (gather { Store.new {} with records := Roster.empty.put (.new "s" 1000 none 1800000) }).run
    (List.replicate 5 (turnOf false 2000) ++ List.replicate 12 (turnOf true 3000))

/-- The write is refused, and there is one notification. -/
theorem ends_are_exclusive_between_touch_and_stop :
    stoppedBetween.known.Nodup ∧
    (∃ r, stoppedBetween.store.read "s" = some r ∧ r.stopTime = some 3000) ∧
    (∃ f, (stoppedBetween.step (turnOf false 4000)).task false = .done (.error f)) ∧
    (stoppedBetween.step (turnOf false 4000)).store = stoppedBetween.store ∧
    ∃ n, stoppedBetween.endsOf "s" = [n] ∧ n.event.Ends n.record := by
  have hfresh : stoppedBetween.known.Nodup := by decide +kernel
  obtain ⟨hended, htold⟩ := @ends_are_exclusive Bool stoppedBetween stoppedBetween _ _
    (List.replicate 5 (turnOf false 2000) ++ List.replicate 12 (turnOf true 3000)) [] rfl rfl hfresh
  have hread : stoppedBetween.store.read "s" = some { Record.new "s" 1000 none 1800000 with
      lastAccess := 3000
      stopTime := some 3000 } := by decide +kernel
  have hwriting : stoppedBetween.writing? false =
      some { Record.new "s" 1000 none 1800000 with lastAccess := 2000 } := by decide +kernel
  obtain ⟨f, _, hfailed, hstore⟩ := (hended _ _ hread rfl).2 (turnOf false 4000) _ hwriting rfl
  refine ⟨hfresh, ⟨_, hread, rfl⟩, ⟨f, hfailed⟩, hstore, ?_⟩
  rcases htold "s" with hnone | ⟨n, hn, hends, _⟩
  · have hsome : stoppedBetween.endsOf "s" ≠ [] := by decide +kernel
    exact absurd hnone hsome
  · exact ⟨n, hn, hends⟩

end Crowd
end Sessions
