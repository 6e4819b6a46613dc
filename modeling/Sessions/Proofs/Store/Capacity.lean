import Sessions.Proofs.Store.Accounting

/-!
# Sessions.Proofs.Store.Capacity

Room for a new record. An id that is taken is refused before anybody asks for room; a store below its
limit takes the record in; a full one drops one record for it, of those that ended the one that was used
longest ago, and refuses where none ended.

* `Desk.Creation` is what a creation owes to its caller, `Desk.creation_perform` that it pays.
* `Store.Turn` lists what one command may do to the store.
* `Store.Within`: the limit is not exceeded. `Store.Turn.within`: a command keeps it so, unless it sets a
  limit that is too low for what is there. `Desk.capacity_is_kept`: so does every run.
-/

namespace Sessions

namespace Store

variable {s s' : Store} {r v : Record} {lines : List LogLine}

/-- The record that makes room for another one: it ended, and none that ended was used longer ago. -/
structure GivesWay (s : Store) (v : Record) : Prop where
  stored : s.read v.id = some v
  ended : v.isTerminal = true
  oldest : ∀ id w, s.read id = some w → w.isTerminal = true → v.lastAccess ≤ w.lastAccess

/-- No stored record ended. -/
def AllLive (s : Store) : Prop := ∀ id w, s.read id = some w → w.isTerminal = false

theorem isFull_iff : s.isFull = true ↔ s.limit ≠ 0 ∧ s.limit ≤ s.size := by
  simp [isFull, Nat.pos_iff_ne_zero]

theorem isFull_eq_false_iff : s.isFull = false ↔ s.limit = 0 ∨ s.size < s.limit := by
  rw [← Bool.not_eq_true, isFull_iff]
  omega

/-! ## One creation -/

theorem givesWay_of_oldestEnded (hv : Roster.oldestEnded s.records.list = some v) : s.GivesWay v := by
  obtain ⟨hmem, hend⟩ := Roster.oldestEnded_spec hv
  refine ⟨Roster.get?_of_mem hmem, hend, ?_⟩
  intro id w hw
  exact Roster.lastAccess_oldestEnded_le hv (Roster.mem_of_get? hw)

theorem oldestEnded_eq_none_iff : Roster.oldestEnded s.records.list = none ↔ s.AllLive := by
  constructor
  · intro hnone id w hw
    by_contra hend
    obtain ⟨v, hv⟩ := Roster.exists_oldestEnded (Roster.mem_of_get? hw) (by simpa using hend)
    rw [hnone] at hv
    cases hv
  · intro hlive
    cases hv : Roster.oldestEnded s.records.list with
    | none => rfl
    | some v =>
      obtain ⟨hstored, hend, _⟩ := givesWay_of_oldestEnded hv
      rw [hlive _ _ hstored] at hend
      cases hend

theorem create_of_all_live (hnew : s.read r.id = none) (hfull : s.isFull = true) (hlive : s.AllLive) :
    s.create r = .error (Fault.storeFull s.limit) := by
  rw [create_of_full hnew hfull, evict?, oldestEnded_eq_none_iff.2 hlive]
  rfl

/-- A full store exchanges one record for the new one, and nothing else. -/
theorem exists_create_of_ended (hnew : s.read r.id = none) (hfull : s.isFull = true)
    (hend : ¬s.AllLive) :
    ∃ v s' lines, s.GivesWay v ∧ s.create r = .ok (s', lines) ∧ s'.size = s.size ∧
      s'.read = Function.update (Function.update s.read v.id none) r.id (some r) := by
  obtain ⟨v, hv⟩ := Option.ne_none_iff_exists'.1 fun hnone => hend (oldestEnded_eq_none_iff.1 hnone)
  have hcreate := create_of_full hnew hfull
  rw [evict?, hv] at hcreate
  refine ⟨v, _, _, givesWay_of_oldestEnded hv, hcreate, ?_, ?_⟩
  · rw [size_create hcreate, if_pos hfull]
  · have hread := read_insert (s.dismiss v) r
    rw [read_dismiss] at hread
    exact hread

/-! ## The limit -/

/-- The store holds no more than its limit, if it has one. -/
def Within (s : Store) : Prop := s.limit = 0 ∨ s.size ≤ s.limit

instance (s : Store) : Decidable s.Within := inferInstanceAs (Decidable (_ ∨ _))

theorem within_new (p : StorePolicy) : (Store.new p).Within := .inr (Nat.zero_le _)

theorem Within.shrink (h : s.Within) (hlimit : s'.limit = s.limit) (hsize : s'.size ≤ s.size) :
    s'.Within := by
  unfold Within at h ⊢
  omega

theorem Within.create (hs : s.Within) (h : s.create r = .ok (s', lines)) : s'.Within := by
  have hsize := size_create h
  have hlimit : s'.limit = s.limit := (booked_create h).limit
  unfold Within at hs ⊢
  cases hfull : s.isFull with
  | true =>
    rw [hfull, if_pos rfl] at hsize
    omega
  | false =>
    rw [hfull, if_neg Bool.false_ne_true] at hsize
    have hroom := isFull_eq_false_iff.1 hfull
    omega

theorem size_remove_le (s : Store) (id : Id) : (s.remove id).2.size ≤ s.size := by
  unfold remove
  split
  · exact List.length_filter_le _ s.records.list
  · exact Nat.le_refl _

/-- What a command that brings in no records from files may do to a store. -/
inductive Turn (s : Store) : Desk.Command → Store → Prop
  | stays (c : Desk.Command) : Turn s c s
  | creates {s' : Store} {r : Record} {lines : List LogLine} (source : Desk.Source)
    (h : s.create r = .ok (s', lines)) : Turn s (.create source) s'
  | updates {s' : Store} {r : Record} (source : Desk.Source) (h : s.update r = .ok s') :
    Turn s (.update source) s'
  | removes (id : Id) : Turn s (.remove id) (s.remove id).2
  | purges : Turn s .purge s.purge.2
  | limits (n : Nat) : Turn s (.setLimit n) (s.setLimit n)

/-- If the command sets a limit, there is room below it for what is there, or there is none to it. -/
def Spared (s : Store) : Desk.Command → Prop
  | .setLimit n => n = 0 ∨ s.size ≤ n
  | _ => True

instance (s : Store) (c : Desk.Command) : Decidable (s.Spared c) := by
  unfold Spared
  split <;> infer_instance

theorem Turn.within {c : Desk.Command} (h : s.Turn c s') (hc : s.Spared c) (hs : s.Within) :
    s'.Within := by
  cases h with
  | stays => exact hs
  | creates source hcreate => exact hs.create hcreate
  | updates source hupdate =>
    have hsize : s'.size = s.size := Roster.size_eq_of_peers (peers_update hupdate)
    exact hs.shrink (booked_update hupdate).limit (Nat.le_of_eq hsize)
  | removes id => exact hs.shrink (s.booked_remove id).limit (s.size_remove_le id)
  | purges => exact hs.shrink rfl (List.length_filter_le _ s.records.list)
  | limits n => exact hc

end Store

namespace Desk

variable {d : Desk} {r : Record}

/-! ## One command -/

theorem turn_perform (d : Desk) {c : Command} (hc : c.isDirect = true) :
    d.store.Turn c (d.perform c).2.store := by
  cases c with
  | create source =>
    rw [perform]
    cases hcreate : d.create source with
    | error f => exact .stays _
    | ok d' =>
      obtain ⟨_, r, lines, hstore⟩ := create_eq_ok hcreate
      exact .creates source hstore
  | update source =>
    rw [perform]
    cases hupdate : d.update source with
    | error f => exact .stays _
    | ok d' =>
      obtain ⟨_, r, _, hstore⟩ := update_eq_ok hupdate
      exact .updates source hstore
  | save =>
    rw [perform]
    cases hsave : d.save with
    | error f => exact .stays _
    | ok d' =>
      rw [settle, (save_eq_ok hsave).2]
      exact .stays _
  | change place op =>
    simp only [perform]
    cases d.copy? place <;> exact .stays _
  | read id place => cases place <;> exact .stays _
  | remove id => exact .removes id
  | purge => exact .purges
  | setLimit n => exact .limits n
  | load | reopen => cases hc
  | _ => exact .stays _

/-- What comes of the creation of a record. An id that is taken comes first; the other failure is that of
a full store in which all records are live; no failure changes anything. -/
structure Creation (d : Desk) (r : Record) (o : Except Fault Reply) (d' : Desk) : Prop where
  duplicate_iff : o = .error (Fault.duplicate r.id) ↔ (d.store.read r.id).isSome = true
  full_iff : o = .error (Fault.storeFull d.store.limit) ↔ d.store.read r.id = none ∧
    (d.store.limit ≠ 0 ∧ d.store.limit ≤ d.store.size) ∧ d.store.AllLive
  failed : ∀ f, o = .error f → d' = d ∧ (f = Fault.duplicate r.id ∨ f = Fault.storeFull d.store.limit)
  added : d.store.read r.id = none → d.store.limit = 0 ∨ d.store.size < d.store.limit →
    o = .ok .done ∧ d'.store.size = d.store.size + 1 ∧
      d'.store.read = Function.update d.store.read r.id (some r)
  exchanged : d.store.read r.id = none → d.store.limit ≠ 0 ∧ d.store.limit ≤ d.store.size →
    ¬d.store.AllLive → o = .ok .done ∧ d'.store.size = d.store.size ∧ ∃ v, d.store.GivesWay v ∧
      d'.store.read = Function.update (Function.update d.store.read v.id none) r.id (some r)

theorem creation_perform {source : Source} (h : d.find source = .ok r) :
    d.Creation r (d.perform (.create source)).1 (d.perform (.create source)).2 := by
  have hdistinct : Fault.duplicate r.id ≠ Fault.storeFull d.store.limit := by
    intro heq
    cases heq
  rw [perform_create h]
  cases hread : d.store.read r.id with
  | some v =>
    rw [Store.create_of_stored hread]
    constructor <;> simp [hread, hdistinct]
  | none =>
    cases hfull : d.store.isFull with
    | false =>
      have hroom := Store.isFull_eq_false_iff.1 hfull
      have hnotfull : ¬(d.store.limit ≠ 0 ∧ d.store.limit ≤ d.store.size) := by omega
      rw [Store.create_of_room hread hfull]
      refine ⟨by simp [hread], by simp [hnotfull], by simp, fun _ _ => ⟨rfl, ?_, ?_⟩, fun _ hno => ?_⟩
      · exact Roster.size_put_new hread
      · exact Store.read_insert d.store r
      · exact absurd hno hnotfull
    | true =>
      have hover := Store.isFull_iff.1 hfull
      have hnoroom : ¬(d.store.limit = 0 ∨ d.store.size < d.store.limit) := by omega
      by_cases hlive : d.store.AllLive
      · rw [Store.create_of_all_live hread hfull hlive]
        constructor <;> simp [hread, hover, hlive, hdistinct.symm]
      · obtain ⟨v, s', lines, hv, hcreate, hsize, hstored⟩ :=
          Store.exists_create_of_ended hread hfull hlive
        rw [hcreate]
        refine ⟨by simp [hread], by simp [hlive], by simp, fun _ hroom => absurd hroom hnoroom, ?_⟩
        intro _ _ _
        exact ⟨rfl, hsize, v, hv, hstored⟩

/-! ## Every run -/

/-- No limit that is set along a run falls short of what is there by then. -/
def Spared : List Command → Desk → Prop
  | [], _ => True
  | c :: cs, d => d.store.Spared c ∧ Spared cs (d.perform c).2

instance decidableSpared : (cs : List Command) → (d : Desk) → Decidable (Spared cs d)
  | [], _ => inferInstanceAs (Decidable True)
  | c :: cs, d =>
    have : Decidable (Spared cs (d.perform c).2) := decidableSpared cs _
    inferInstanceAs (Decidable (_ ∧ _))

/-- On the way through a run, the limit is exceeded nowhere. -/
theorem within_after {cs pre : List Command} (hcs : ∀ c ∈ cs, c.isDirect = true) (d : Desk)
    (hspared : Spared cs d) (hd : d.store.Within) (hpre : pre <+: cs) : (d.after pre).store.Within := by
  induction cs generalizing pre d with
  | nil =>
    rw [List.prefix_nil.1 hpre]
    exact hd
  | cons c cs ih =>
    obtain ⟨hc, hcs⟩ := List.forall_mem_cons.1 hcs
    rcases List.prefix_cons_iff.1 hpre with rfl | ⟨pre', rfl, hpre'⟩
    · exact hd
    · exact ih hcs (d.perform c).2 hspared.2 ((turn_perform d hc).within hspared.1 hd) hpre'

/-- **Capacity.** Every creation pays what `Creation` says it owes. A new store is within its limit; and
one that is so stays so throughout every run that takes nothing in from files and sets no limit, but for
none at all, below the number of records that are there. -/
theorem capacity_is_kept :
    (∀ (d : Desk) source r, d.find source = .ok r →
      d.Creation r (d.perform (.create source)).1 (d.perform (.create source)).2) ∧
    (∀ p, (Store.new p).Within) ∧
    ∀ (d : Desk) cs, d.store.Within → (∀ c ∈ cs, c.isDirect = true) → Spared cs d →
      ∀ pre, pre <+: cs → (d.after pre).store.Within :=
  ⟨fun _ _ _ h => creation_perform h, Store.within_new,
    fun d _ hd hcs hspared _ hpre => within_after hcs d hspared hd hpre⟩

/-- Two sessions fill a store. Both end, the one that was created last without being used again; it makes
room for the third one. Then the limit is lifted, a fourth session comes, and the limit is set again. -/
def crowdedDay : List Command :=
  let session (id : Id) : Source := .draft ⟨.new id 1000 none 1800000, []⟩
  [.create (session "a"), .create (session "b"), .read "a" (some "x"), .change "x" (.stop 5000),
    .update (.copy "x"), .read "b" (some "y"), .change "y" .expire, .update (.copy "y"),
    .create (session "c"), .setLimit 0, .create (session "d"), .setLimit 3]

theorem capacity_is_kept_on_a_crowded_day :
    ∃ d : Desk, d.store = Store.new { maxSessions := 2 } ∧
      (∀ pre, pre <+: crowdedDay → (d.after pre).store.Within) ∧
      (d.after crowdedDay).store.size = 3 ∧ (d.after (crowdedDay.take 9)).store.size = 2 ∧
      ∃ v : Record, v.id = ("b" : Id) ∧ (d.after (crowdedDay.take 8)).store.GivesWay v := by
  let d := openWith { maxSessions := 2 } ⟨Record.id, fun _ => none⟩ .empty .silent
  let full := d.after (crowdedDay.take 8)
  let source : Source := .draft ⟨.new "c" 1000 none 1800000, []⟩
  obtain ⟨hcreation, hnew, hrun⟩ := capacity_is_kept
  have hwithin := hrun d crowdedDay (hnew { maxSessions := 2 }) (by decide) (by decide +kernel)
  have hb : full.store.read "b" = some { Record.new "b" 1000 none 1800000 with expired := true } := by
    decide +kernel
  have hended : ¬full.store.AllLive := by
    intro hlive
    cases hlive "b" _ hb
  obtain ⟨_, hsize, v, hv, hread⟩ := (hcreation full source _ rfl).exchanged (by decide +kernel)
    (by decide +kernel) hended
  have hnext : d.after (crowdedDay.take 9) = (full.perform (.create source)).2 := rfl
  have hkept : (d.after (crowdedDay.take 9)).store.size = 2 := by
    rw [hnext, hsize]
    decide +kernel
  refine ⟨d, rfl, hwithin, by decide +kernel, hkept, v, ?_, hv⟩
  -- what is gone behind the creation can only be what made room for it
  have hgone : (full.perform (.create source)).2.store.read "b" = none := by decide +kernel
  by_contra hother
  rw [hread, Function.update_of_ne (by decide), Function.update_of_ne (Ne.symm hother), hb] at hgone
  cases hgone

end Desk
end Sessions
