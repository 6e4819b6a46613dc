import Sessions.Proofs.Store.Contents

/-!
# Sessions.Proofs.Store.Population

How many live records the store holds behind each operation, and which records an operation drops.

* `Store.population_create`, `Store.population_update`, `Store.population_purge`: the number of live
  records. Making room does not change it.
* `Roster.Retains s s'` says that whatever is gone from the first content to the second had ended.
-/

namespace Sessions

/-- One for a live record, nothing for one that ended. -/
def Record.headcount (r : Record) : Nat := if r.isTerminal then 0 else 1

theorem Record.headcount_of_live {r : Record} (h : r.isTerminal = false) : r.headcount = 1 := by
  simp [headcount, h]

theorem Record.headcount_of_terminal {r : Record} (h : r.isTerminal = true) : r.headcount = 0 := by
  simp [headcount, h]

namespace Roster

variable {s s' : Roster} {r v : Record} {id : Id}

/-! ## The number of live records -/

def population (s : Roster) : Nat := s.live.length

theorem length_live_cons (r : Record) (l : List Record) :
    ((r :: l).filter (!·.isTerminal)).length = (l.filter (!·.isTerminal)).length + r.headcount := by
  cases h : r.isTerminal <;> simp [Record.headcount, h]

/-- A list in which the name of a record does not occur is not changed by writing it over. -/
theorem overwrite_of_not_mem {l : List Record} (h : r.id ∉ l.map (·.id)) : overwrite r l = l := by
  induction l with
  | nil => rfl
  | cons x xs ih =>
    simp only [List.map_cons, List.mem_cons, not_or] at h
    have hx : ¬x.id = r.id := Ne.symm h.1
    have hxs : overwrite r xs = xs := ih h.2
    simp only [overwrite, List.map_cons, if_neg hx] at hxs ⊢
    rw [hxs]

theorem length_live_overwrite {l : List Record} (hl : (l.map (·.id)).Nodup) (hv : v ∈ l)
    (hid : v.id = r.id) :
    ((overwrite r l).filter (!·.isTerminal)).length + v.headcount =
      (l.filter (!·.isTerminal)).length + r.headcount := by
  -- the name occurs once, so behind the record that bears it nothing is written over
  induction l with
  | nil => cases hv
  | cons x xs ih =>
    simp only [List.map_cons, List.nodup_cons] at hl
    rcases List.mem_cons.1 hv with rfl | hmem
    · have hrest : overwrite r xs = xs := overwrite_of_not_mem (hid ▸ hl.1)
      have hcons : overwrite r (v :: xs) = r :: overwrite r xs := by simp [overwrite, hid]
      rw [hcons, hrest, length_live_cons, length_live_cons]
      omega
    · have hx : ¬x.id = r.id := fun h => hl.1 (h ▸ hid ▸ List.mem_map_of_mem hmem)
      have hcons : overwrite r (x :: xs) = x :: overwrite r xs := by simp [overwrite, hx]
      rw [hcons, length_live_cons, length_live_cons]
      have hrest := ih hl.2 hmem
      omega

theorem population_put_over (h : s.get? r.id = some v) :
    (s.put r).population + v.headcount = s.population + r.headcount := by
  have hcontains : s.contains r.id = true := by rw [contains, h]; rfl
  unfold put
  rw [dif_pos hcontains]
  exact length_live_overwrite s.distinct (mem_of_get? h) (id_of_get? h)

theorem population_put_new (h : s.get? r.id = none) :
    (s.put r).population = s.population + r.headcount := by
  have hcontains : ¬s.contains r.id = true := by rw [contains, h]; simp
  unfold put
  rw [dif_neg hcontains]
  exact length_live_cons r s.list

theorem population_erase_terminal (h : s.get? id = some v) (hend : v.isTerminal = true) :
    (s.erase id).population = s.population := by
  have hsame : (s.erase id).live = s.live := by
    simp only [live, erase, filter, List.filter_filter]
    refine List.filter_congr fun x hx => ?_
    by_cases hid : x.id = id
    · have hxv : x = v := by
        have hget := get?_of_mem hx
        rw [hid, h, Option.some.injEq] at hget
        exact hget.symm
      simp [hxv, hend]
    · simp [hid]
  rw [population, hsame]
  rfl

theorem population_filter_live (s : Roster) :
    (s.filter (!·.isTerminal)).population = s.population := by
  simp only [population, live, filter, List.filter_filter, Bool.and_self]

/-! ## What is dropped -/

/-- Whatever is gone from the first content to the second one had ended. -/
def Retains (s s' : Roster) : Prop :=
  ∀ id r, s.get? id = some r → s'.get? id = none → r.isTerminal = true

theorem retains_of_isSome (h : ∀ id r, s.get? id = some r → (s'.get? id).isSome) :
    s.Retains s' := by
  intro id r hr hgone
  have hstays := h id r hr
  rw [hgone] at hstays
  cases hstays

end Roster

namespace Store

variable {s s' : Store} {r v : Record} {lines : List LogLine}

theorem Room.population {room : Roster} (h : s.Room room) :
    room.population = s.records.population := by
  rcases h with rfl | ⟨_, v, hv, rfl⟩
  · rfl
  · obtain ⟨hmem, hend⟩ := Roster.oldestEnded_spec hv
    exact Roster.population_erase_terminal (Roster.get?_of_mem hmem) hend

theorem population_create (h : s.create r = .ok (s', lines)) :
    s'.records.population = s.records.population + r.headcount := by
  obtain ⟨hnew, room, hroom, hs'⟩ := create_eq_ok h
  have habsent : room.get? r.id = none := by
    rcases hroom.get? r.id with hsame | ⟨_, hgone, _⟩
    · rw [hsame, hnew]
    · exact hgone
  rw [hs', Roster.population_put_new habsent, hroom.population]

theorem population_update (hread : s.read r.id = some v) (h : s.update r = .ok s') :
    s'.records.population + v.headcount = s.records.population + r.headcount := by
  rw [(update_eq_ok h).2]
  exact Roster.population_put_over hread

theorem population_purge (s : Store) : s.purge.2.records.population = s.records.population :=
  Roster.population_filter_live s.records

theorem retains_create (h : s.create r = .ok (s', lines)) : s.records.Retains s'.records := by
  obtain ⟨hnew, hread, hothers⟩ := read_create h
  intro id x hx hgone
  by_cases hid : id = r.id
  · rw [hid] at hx
    exact absurd (hnew.symm.trans hx) (by simp)
  · rcases hothers id hid with hsame | ⟨_, _, v, hv, hend⟩
    · have hstays : s'.read id = some x := hsame.trans hx
      exact absurd (hgone.symm.trans hstays) (by simp)
    · have heq : some v = some x := hv.symm.trans hx
      cases heq
      exact hend

theorem retains_update (h : s.update r = .ok s') : s.records.Retains s'.records := by
  refine Roster.retains_of_isSome fun id x hx => ?_
  have hread : s'.read id = if id = r.id then some r else s.read id := read_update h id
  change (s'.read id).isSome
  rw [hread]
  split
  · rfl
  · change (s.records.get? id).isSome
    rw [hx]
    rfl

theorem retains_purge (s : Store) : s.records.Retains s.purge.2.records := by
  intro id r hr hgone
  have hread : s.purge.2.records.get? id = (s.records.get? id).filter (!·.isTerminal) :=
    s.read_purge id
  rw [hread, hr, Option.filter_eq_none_iff] at hgone
  simpa using hgone r rfl

end Store
end Sessions
