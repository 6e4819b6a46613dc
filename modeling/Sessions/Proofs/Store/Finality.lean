import Mathlib.Data.List.Infix
import Sessions.Proofs.Store.Contents
import Sessions.Store.Desk

/-!
# Sessions.Proofs.Store.Finality

What becomes of a record that ended, while copies of it, of any age, are changed and written back.
The store turns live copies away, so the record stays ended. It takes every ended copy, so the end
itself lasts only until a copy is written back that was taken before and ended on its own.

* `Desk.read_perform`: the one way in which a step changes a stored record, which is an update.
* `Desk.Settled` is the invariant: the record ended as it did, and so did all copies of it, but for
  those at the places that held another one at the start.
* `Desk.ended_records_stay_ended`: what holds of any run.
* `Desk.stop_is_written_over`: a run in which a stop becomes an expiration.
-/

namespace Sessions

namespace Record

variable {r r' : Record} {α : Type}

/-- Both records carry the same marks of their end: stopped at the same time, or not, and marked
expired, or not. -/
def EndsAs (r r' : Record) : Prop := r.stopTime = r'.stopTime ∧ r.expired = r'.expired

instance : Decidable (r.EndsAs r') := inferInstanceAs (Decidable (_ ∧ _))

theorem EndsAs.isTerminal (h : r.EndsAs r') : r.isTerminal = r'.isTerminal := by
  rw [Record.isTerminal, Record.isTerminal, isStopped, isStopped, h.1, h.2]

theorem evolves_of_map {x : Except Fault α} {f : α → Answer × Record} {a : Answer}
    (h : x.map f = .ok (a, r')) (hx : ∀ y, x = .ok y → r.Evolves (f y).2) : r.Evolves r' := by
  cases hy : x with
  | error _ => rw [hy] at h; cases h
  | ok y =>
    rw [hy, Except.map, Except.ok.injEq] at h
    have hf := hx y hy
    rwa [h] at hf

theorem evolves_of_apply {op : Op} {a : Answer} (h : r.apply op = .ok (a, r')) : r.Evolves r' := by
  cases op with
  | touch now => exact evolves_of_map h fun _ h => (Amends.of_touch h).evolves
  | setTimeout limit => exact evolves_of_map h fun _ h => (Amends.of_setTimeout h).evolves
  | set key value now => exact evolves_of_map h fun _ h => (Amends.of_set h).evolves
  | remove key now => exact evolves_of_map h fun _ h => (Amends.of_remove h).evolves
  | stop now => exact evolves_of_map h fun _ h => evolves_of_stop h
  | expire => exact evolves_of_map h fun _ h => evolves_of_expire h
  | validate now => exact evolves_of_map h fun _ _ => .refl r
  | _ =>
    cases h
    exact .refl _

theorem evolves_perform (r : Record) (op : Op) : r.Evolves (r.perform op).2 := by
  unfold perform
  split
  · rename_i h
    exact evolves_of_apply h
  · exact .refl r

end Record

namespace Desk

variable {d d' : Desk} {id : Id} {r v c : Record} {place : Text}

/-- The command writes nothing over a record but a copy, and brings no records in from files. -/
def Command.WritesCopies : Command → Prop
  | .update (.draft _) | .load | .reopen => False
  | _ => True

instance : DecidablePred Command.WritesCopies := fun c => by
  unfold Command.WritesCopies
  split <;> infer_instance

def after (cs : List Command) (d : Desk) : Desk := cs.foldl (fun d c => (d.perform c).2) d

/-! ## One step -/

theorem copy?_hold (d : Desk) (place place' : Text) (r : Option Record) :
    (d.hold place r).copy? place' = if place' = place then r else d.copy? place' := by
  unfold copy? hold
  by_cases h : place' = place
  · simp [h]
  · rw [List.lookup_cons, beq_eq_false_iff_ne.2 h, if_neg h]
    simp only [Text.lookup_filter_ne h]

theorem find_copy_eq_ok (h : d.find (.copy place) = .ok c) : d.copy? place = some c := by
  simp only [find] at h
  cases hcopy : d.copy? place <;> rw [hcopy] at h <;> cases h
  rfl

theorem create_eq_ok {source : Source} (h : d.create source = .ok d') :
    d'.copies = d.copies ∧ ∃ c lines, d.store.create c = .ok (d'.store, lines) := by
  unfold create at h
  cases hfind : d.find source with
  | error f => rw [hfind] at h; cases h
  | ok c =>
    cases hcreate : d.store.create c with
    | error f => simp [hfind, hcreate, bind, Except.bind] at h
    | ok p =>
      simp only [hfind, hcreate, bind, Except.bind] at h
      cases h
      exact ⟨rfl, c, p.2, hcreate⟩

theorem update_eq_ok {source : Source} (h : d.update source = .ok d') :
    d'.copies = d.copies ∧ ∃ c, d.find source = .ok c ∧ d.store.update c = .ok d'.store := by
  unfold update at h
  cases hfind : d.find source with
  | error f => rw [hfind] at h; cases h
  | ok c =>
    cases hupdate : d.store.update c with
    | error f => simp [hfind, hupdate, bind, Except.bind] at h
    | ok store =>
      simp only [hfind, hupdate, bind, Except.bind] at h
      cases h
      exact ⟨rfl, c, rfl, hupdate⟩

theorem save_eq_ok (h : d.save = .ok d') : d'.copies = d.copies ∧ d'.store = d.store := by
  unfold save at h
  cases hsave : d.store.save d.codec d.files with
  | error f => rw [hsave] at h; cases h
  | ok p =>
    rw [hsave] at h
    cases h
    exact ⟨rfl, rfl⟩

/-- What a stored record becomes in a step, if its id stays: itself, or a copy that was taken. -/
theorem read_perform {cmd : Command} (hcmd : cmd.WritesCopies) (hread : d.store.read id = some v)
    (hstays : (d.perform cmd).2.store.contains id = true) :
    (d.perform cmd).2.store.read id = some v ∨
      ∃ place c, cmd = .update (.copy place) ∧ d.copy? place = some c ∧ c.id = id ∧
        d.store.update c = .ok (d.perform cmd).2.store := by
  obtain ⟨v', hv'⟩ : ∃ v', (d.perform cmd).2.store.read id = some v' :=
    Option.isSome_iff_exists.1 hstays
  cases cmd with
  | create source =>
    left
    cases hcreate : d.create source with
    | error f =>
      rw [perform, hcreate]
      exact hread
    | ok d' =>
      obtain ⟨_, c, lines, hstore⟩ := create_eq_ok hcreate
      obtain ⟨hnew, _, hothers⟩ := Store.read_create hstore
      rw [perform, hcreate] at hv' ⊢
      have hid : id ≠ c.id := fun h => absurd (hnew.symm.trans (h ▸ hread)) (by simp)
      rcases hothers id hid with hsame | ⟨_, hgone, _⟩
      · exact hsame.trans hread
      · exact absurd (hgone.symm.trans hv') (by simp)
  | update source =>
    cases hupdate : d.update source with
    | error f =>
      rw [perform, hupdate]
      exact Or.inl hread
    | ok d' =>
      obtain ⟨_, c, hfind, hstore⟩ := update_eq_ok hupdate
      rw [perform, hupdate]
      cases source with
      | draft draft => exact absurd hcmd (by simp [Command.WritesCopies])
      | copy place =>
        by_cases hid : id = c.id
        · exact Or.inr ⟨place, c, rfl, find_copy_eq_ok hfind, hid.symm, hstore⟩
        · refine Or.inl ?_
          have hwritten := Store.read_update hstore id
          rw [if_neg hid] at hwritten
          exact hwritten.trans hread
  | remove id' =>
    have hremoved : (d.perform (.remove id')).2.store.read id = _ := d.store.read_remove id' id
    rw [hv'] at hremoved
    split at hremoved
    · cases hremoved
    · exact Or.inl (hv'.trans (hremoved.trans hread))
  | purge =>
    have hpurged : (d.perform .purge).2.store.read id = _ := d.store.read_purge id
    rw [hv', hread] at hpurged
    have hkept := Option.filter_eq_some_iff.1 hpurged.symm
    exact Or.inl (hv'.trans hkept.1.symm)
  | read id' place => cases place <;> exact Or.inl hread
  | change place op =>
    left
    simp only [perform]
    cases d.copy? place <;> exact hread
  | save =>
    left
    cases hsave : d.save with
    | error f =>
      rw [perform, hsave]
      exact hread
    | ok d' =>
      rw [perform, hsave, settle, (save_eq_ok hsave).2]
      exact hread
  | load => exact absurd hcmd (by simp [Command.WritesCopies])
  | reopen => exact absurd hcmd (by simp [Command.WritesCopies])
  | _ => exact Or.inl hread

/-- Where the copies behind a step come from: they were there, or were read, or were changed. -/
theorem copy?_perform (cmd : Command) (h : (d.perform cmd).2.copy? place = some c) :
    d.copy? place = some c ∨ d.store.read c.id = some c ∨
      ∃ c', d.copy? place = some c' ∧ c'.Evolves c := by
  have same : ∀ {d' : Desk}, d'.copies = d.copies → d'.copy? place = some c →
      d.copy? place = some c := by
    intro d' hd' h
    rwa [copy?, ← hd']
  cases cmd with
  | read id place' =>
    cases place' with
    | none => exact Or.inl h
    | some place' =>
      rw [perform, copy?_hold] at h
      split at h
      · have hid : c.id = id := Roster.id_of_get? h
        exact Or.inr (Or.inl (hid ▸ h))
      · exact Or.inl h
  | change place' op =>
    simp only [perform] at h
    cases hcopy : d.copy? place' with
    | none =>
      rw [hcopy] at h
      exact Or.inl h
    | some c' =>
      simp only [hcopy, copy?_hold] at h
      split at h
      · rename_i heq
        cases h
        exact Or.inr (Or.inr ⟨c', heq ▸ hcopy, c'.evolves_perform op⟩)
      · exact Or.inl h
  | create source =>
    cases hcreate : d.create source with
    | error f => rw [perform, hcreate] at h; exact Or.inl h
    | ok d' => rw [perform, hcreate] at h; exact Or.inl (same (create_eq_ok hcreate).1 h)
  | update source =>
    cases hupdate : d.update source with
    | error f => rw [perform, hupdate] at h; exact Or.inl h
    | ok d' => rw [perform, hupdate] at h; exact Or.inl (same (update_eq_ok hupdate).1 h)
  | save =>
    cases hsave : d.save with
    | error f => rw [perform, hsave] at h; exact Or.inl h
    | ok d' => rw [perform, hsave] at h; exact Or.inl (same (save_eq_ok hsave).1 h)
  | _ => exact Or.inl (same rfl h)

/-! ## The invariant -/

/-- The place holds a copy of the record that did not end as the record did. -/
def HoldsOther (d : Desk) (r : Record) (place : Text) : Prop :=
  ∃ c, d.copy? place = some c ∧ c.id = r.id ∧ ¬c.EndsAs r

/-- The record is in the store as it ended, and every copy of it ended the same way, but for those
at stale places. -/
structure Settled (r : Record) (stale : Text → Prop) (d : Desk) : Prop where
  stored : ∃ v, d.store.read r.id = some v ∧ v.EndsAs r
  copies : ∀ place c, d.copy? place = some c → c.id = r.id → c.EndsAs r ∨ stale place

theorem settled_of_read (hread : d.store.read r.id = some r) : d.Settled r (d.HoldsOther r) where
  stored := ⟨r, hread, rfl, rfl⟩
  copies place c hcopy hid := by
    by_cases hends : c.EndsAs r
    · exact Or.inl hends
    · exact Or.inr ⟨c, hcopy, hid, hends⟩

theorem isTerminal_perform {cmd : Command} (hcmd : cmd.WritesCopies)
    (hread : d.store.read id = some v) (hend : v.isTerminal = true)
    (hstays : (d.perform cmd).2.store.contains id = true) :
    ∃ v', (d.perform cmd).2.store.read id = some v' ∧ v'.isTerminal = true := by
  rcases read_perform hcmd hread hstays with hsame | ⟨place, c, _, _, rfl, hupdate⟩
  · exact ⟨v, hsame, hend⟩
  · have hwritten := Store.read_update hupdate c.id
    rw [if_pos rfl] at hwritten
    exact ⟨c, hwritten, Store.isTerminal_of_update hupdate hread hend⟩

/-- One step keeps the record settled, unless it writes back the copy of a stale place, which by
then ended otherwise. -/
theorem Settled.step {stale : Text → Prop} (h : d.Settled r stale) (hend : r.isTerminal = true)
    {cmd : Command} (hcmd : cmd.WritesCopies)
    (hstays : (d.perform cmd).2.store.contains r.id = true) :
    (d.perform cmd).2.Settled r stale ∨
      ∃ place c, cmd = .update (.copy place) ∧ stale place ∧ d.copy? place = some c ∧
        c.id = r.id ∧ c.isTerminal = true ∧ ¬c.EndsAs r := by
  obtain ⟨v, hread, hv⟩ := h.stored
  have hcopies : ∀ place c, (d.perform cmd).2.copy? place = some c → c.id = r.id →
      c.EndsAs r ∨ stale place := by
    intro place c hcopy hid
    rcases copy?_perform cmd hcopy with hold | hstored | ⟨c', hold, hevolves⟩
    · exact h.copies place c hold hid
    · rw [hid, hread, Option.some.injEq] at hstored
      exact Or.inl (hstored ▸ hv)
    · rcases h.copies place c' hold (hevolves.id.symm.trans hid) with hends | hstale
      · have hsame : c = c' := hevolves.ended (hends.isTerminal.trans hend)
        exact Or.inl (hsame ▸ hends)
      · exact Or.inr hstale
  rcases read_perform hcmd hread hstays with hsame | ⟨place, c, rfl, hcopy, hid, hupdate⟩
  · exact Or.inl ⟨⟨v, hsame, hv⟩, hcopies⟩
  · have hwritten := Store.read_update hupdate r.id
    rw [if_pos hid.symm] at hwritten
    by_cases hends : c.EndsAs r
    · exact Or.inl ⟨⟨c, hwritten, hends⟩, hcopies⟩
    · refine Or.inr ⟨place, c, rfl, ?_, hcopy, hid, ?_, hends⟩
      · exact (h.copies place c hcopy hid).resolve_left hends
      · exact Store.isTerminal_of_update hupdate (hid ▸ hread) (hv.isTerminal.trans hend)

/-! ## Every run -/

/-- The id is in the store from the beginning of a run to its end. -/
def Stays (d : Desk) (id : Id) (cs : List Command) : Prop :=
  ∀ before, before <+: cs → (d.after before).store.contains id = true

instance (d : Desk) (id : Id) (cs : List Command) : Decidable (d.Stays id cs) :=
  decidable_of_iff (∀ before ∈ cs.inits, (d.after before).store.contains id = true) <| by
    simp only [List.mem_inits, Stays]

theorem Stays.tail {cmd : Command} {cs : List Command} (h : d.Stays id (cmd :: cs)) :
    (d.perform cmd).2.Stays id cs :=
  fun before hbefore => h (cmd :: before) ((List.prefix_cons_inj cmd).2 hbefore)

theorem Stays.next {cmd : Command} {cs : List Command} (h : d.Stays id (cmd :: cs)) :
    (d.perform cmd).2.store.contains id = true :=
  h.tail [] List.nil_prefix

theorem isTerminal_after {cs : List Command} (hcs : ∀ cmd ∈ cs, cmd.WritesCopies)
    (hread : d.store.read id = some v) (hend : v.isTerminal = true) (hstays : d.Stays id cs) :
    ∃ v', (d.after cs).store.read id = some v' ∧ v'.isTerminal = true := by
  induction cs generalizing d v with
  | nil => exact ⟨v, hread, hend⟩
  | cons cmd cs ih =>
    obtain ⟨hcmd, hcs⟩ := List.forall_mem_cons.1 hcs
    obtain ⟨v', hread', hend'⟩ := isTerminal_perform hcmd hread hend hstays.next
    exact ih hcs hread' hend' hstays.tail

/-- Either the record is settled to the end of the run, or up to the first time when the copy of a
stale place is written back over it, which by then ended otherwise. -/
theorem Settled.after {stale : Text → Prop} (h : d.Settled r stale) (hend : r.isTerminal = true)
    {cs : List Command} (hcs : ∀ cmd ∈ cs, cmd.WritesCopies) (hstays : d.Stays r.id cs) :
    (d.after cs).Settled r stale ∨
      ∃ before place c, before ++ [.update (.copy place)] <+: cs ∧
        (d.after before).Settled r stale ∧ stale place ∧
        (d.after before).copy? place = some c ∧ c.id = r.id ∧ c.isTerminal = true ∧
        ¬c.EndsAs r := by
  induction cs generalizing d with
  | nil => exact Or.inl h
  | cons cmd cs ih =>
    obtain ⟨hcmd, hcs⟩ := List.forall_mem_cons.1 hcs
    rcases h.step hend hcmd hstays.next with hnext | ⟨place, c, rfl, hc⟩
    · rcases ih hnext hcs hstays.tail with hlast | ⟨before, place, c, hprefix, hc⟩
      · exact Or.inl hlast
      · exact Or.inr ⟨cmd :: before, place, c, (List.prefix_cons_inj cmd).2 hprefix, hc⟩
    · exact Or.inr ⟨[], place, c, (List.prefix_cons_inj _).2 List.nil_prefix, h, hc⟩

/-- **Ended records stay ended.** Take any desk at which a record ended, and any run of it that
writes back copies only and during which the id of the record stays in the store. Behind it the
record is ended still. A live copy of it is refused with the fault of its end, and the refusal
changes nothing. And it carries the very marks of its end, unless a copy was written back, at a time
when it still did, that had ended otherwise, and that goes back to one which was held when the
record ended and was not of the record as it ended. -/
theorem ended_records_stay_ended (hread : d.store.read r.id = some r) (hend : r.isTerminal = true)
    {cs : List Command} (hcs : ∀ cmd ∈ cs, cmd.WritesCopies) (hstays : d.Stays r.id cs) :
    ∃ v, (d.after cs).store.read r.id = some v ∧ v.isTerminal = true ∧
      (∀ place c, (d.after cs).copy? place = some c → c.id = r.id → c.isTerminal = false →
        ∃ f, v.endFault? = some f ∧
          (d.after cs).perform (.update (.copy place)) = (.error f, d.after cs)) ∧
      (v.EndsAs r ∨ ∃ before place c, before ++ [.update (.copy place)] <+: cs ∧
        d.HoldsOther r place ∧
        (∃ w, (d.after before).store.read r.id = some w ∧ w.EndsAs r) ∧
        (d.after before).copy? place = some c ∧ c.id = r.id ∧ c.isTerminal = true ∧
        ¬c.EndsAs r) := by
  obtain ⟨v, hv, hvend⟩ := isTerminal_after hcs hread hend hstays
  refine ⟨v, hv, hvend, ?_, ?_⟩
  · intro place c hcopy hid hlive
    obtain ⟨f, hf, hrefused⟩ := Store.exists_update_eq_error (hid ▸ hv) hvend hlive
    refine ⟨f, hf, ?_⟩
    simp [perform, update, find, hcopy, hrefused, bind, Except.bind, settle]
  · rcases (settled_of_read hread).after hend hcs hstays with hlast | hwritten
    · obtain ⟨w, hw, hends⟩ := hlast.stored
      rw [hv, Option.some.injEq] at hw
      exact Or.inl (hw ▸ hends)
    · obtain ⟨before, place, c, hprefix, hsettled, hstale, hc⟩ := hwritten
      exact Or.inr ⟨before, place, c, hprefix, hstale, hsettled.stored, hc⟩

/-- One session and two copies of it from when it was live, the first of which is stopped and written
back. -/
def stopping : List Command :=
  [.create (.draft ⟨.new "s" 1000 none 1800000, []⟩), .read "s" (some "a"), .read "s" (some "b"),
    .change "a" (.stop 2000), .update (.copy "a")]

def stoppedOnce : Desk := (openWith {} ⟨Record.id, fun _ => none⟩ .empty .silent).after stopping

def stoppedRecord : Record := { Record.new "s" 1000 none 1800000 with
  lastAccess := 2000
  stopTime := some 2000 }

/-- The copy that is still live is used, and then refused. -/
theorem ended_records_stay_ended_behind_live_copy :
    stoppedOnce.store.read "s" = some stoppedRecord ∧
    ∃ d, d = stoppedOnce.after [.change "b" (.touch 3000), .update (.copy "b")] ∧
      d.store.read "s" = some stoppedRecord ∧
      d.perform (.update (.copy "b")) = (.error (.stopped "s" (.atTime 2000)), d) := by
  let cs : List Command := [.change "b" (.touch 3000), .update (.copy "b")]
  have hstopped : stoppedOnce.store.read "s" = some stoppedRecord := by decide +kernel
  obtain ⟨v, hread, _, hrefused, _⟩ := @ended_records_stay_ended stoppedOnce stoppedRecord hstopped
    (by decide) cs (by decide) (by decide +kernel)
  have hv : (stoppedOnce.after cs).store.read "s" = some stoppedRecord := by decide +kernel
  cases hv.symm.trans hread
  obtain ⟨f, hf, hperform⟩ := hrefused "b" { Record.new "s" 1000 none 1800000 with lastAccess := 3000 }
    (by decide +kernel) rfl rfl
  cases hf
  exact ⟨hstopped, _, rfl, hread, hperform⟩

/-- **A stop is written over.** The second copy, live when it was taken, is marked expired and
written back: the session that was stopped is not stopped any more, but expired. -/
theorem stop_is_written_over :
    ∃ cs : List Command, (∀ cmd ∈ stopping ++ cs, cmd.WritesCopies) ∧ stoppedOnce.Stays "s" cs ∧
      (∃ r, stoppedOnce.store.read "s" = some r ∧ r.stopTime = some 2000 ∧ r.expired = false) ∧
      ∃ r, (stoppedOnce.after cs).store.read "s" = some r ∧ r.stopTime = none ∧ r.expired = true :=
  ⟨[.change "b" .expire, .update (.copy "b")], by decide, by decide +kernel,
    ⟨stoppedRecord, by decide +kernel, rfl, rfl⟩,
    ⟨(Record.new "s" 1000 none 1800000).marked, by decide +kernel, rfl, rfl⟩⟩

end Desk
end Sessions
