import Mathlib.Data.List.Perm.Lattice
import Sessions.Proofs.Store.Contents

/-!
# Sessions.Proofs.Store.Eviction

What a full store drops for a new record, and how its size goes. Contents are compared in three ways.

* `Roster.Peers`: they hold the same sessions. `Roster.size_eq_of_peers`: then they are of one size.
* `Roster.Settles`: a record that ended stays so as long as it is there. Every use of the store is of this
  kind.
* `Roster.Evicts`: what is gone had ended, and was used longest ago of all that had. `Store.evicts_create`
  says so of a creation, `Store.size_create` how many records there are afterwards.
-/

namespace Sessions

namespace Roster

variable {s s' s'' : Roster} {r v : Record} {id : Id}

/-! ## The victim -/

/-- No record that ended was used longer ago than the one that makes room. -/
theorem lastAccess_oldestEnded_le {l : List Record} (h : oldestEnded l = some v) {w : Record}
    (hw : w ∈ l) (hend : w.isTerminal = true) : v.lastAccess ≤ w.lastAccess := by
  induction l generalizing v with
  | nil => cases hw
  | cons x xs ih =>
    rw [oldestEnded] at h
    cases hrest : oldestEnded xs with
    | none =>
      -- nobody ended behind the first record, so that is the one
      rw [hrest] at h
      obtain ⟨_, hx⟩ := Option.ite_none_right_eq_some.1 h
      cases hx
      rcases List.mem_cons.1 hw with rfl | hw
      · exact UInt64.le_refl _
      · obtain ⟨y, hy⟩ := exists_oldestEnded hw hend
        rw [hrest] at hy
        cases hy
    | some b =>
      rw [hrest] at h
      by_cases hx : x.isTerminal ∧ x.lastAccess ≤ b.lastAccess
      · simp only [if_pos hx] at h
        cases h
        rcases List.mem_cons.1 hw with rfl | hw
        · exact UInt64.le_refl _
        · exact UInt64.le_trans hx.2 (ih hrest hw)
      · simp only [if_neg hx] at h
        cases h
        rcases List.mem_cons.1 hw with rfl | hw
        · exact (UInt64.le_total _ _).resolve_right fun hle => hx ⟨hend, hle⟩
        · exact ih hrest hw

/-! ## Size -/

theorem size_put_new (h : s.get? r.id = none) : (s.put r).size = s.size + 1 := by
  have hcontains : ¬s.contains r.id = true := by simp [contains, h]
  rw [put, dif_neg hcontains]
  rfl

theorem mem_ids_iff : id ∈ s.list.map (·.id) ↔ (s.get? id).isSome = true := by
  rw [List.mem_map, Option.isSome_iff_exists]
  constructor
  · rintro ⟨x, hx, rfl⟩
    exact ⟨x, get?_of_mem hx⟩
  · rintro ⟨x, hx⟩
    exact ⟨x, mem_of_get? hx, id_of_get? hx⟩

/-- Both contents hold the same sessions, whatever became of them. -/
def Peers (s s' : Roster) : Prop := ∀ id, (s'.get? id).isSome = (s.get? id).isSome

theorem Peers.refl (s : Roster) : s.Peers s := fun _ => rfl

theorem Peers.symm (h : s.Peers s') : s'.Peers s := fun id => (h id).symm

theorem Peers.trans (h : s.Peers s') (h' : s'.Peers s'') : s.Peers s'' :=
  fun id => (h' id).trans (h id)

theorem peers_iff : s.Peers s' ↔ (∀ x ∈ s.list, (s'.get? x.id).isSome = true) ∧
    ∀ x ∈ s'.list, (s.get? x.id).isSome = true := by
  constructor
  · refine fun h => ⟨fun x hx => ?_, fun x hx => ?_⟩
    · rw [h x.id, get?_of_mem hx]
      rfl
    · rw [← h x.id, get?_of_mem hx]
      rfl
  · rintro ⟨hstay, hold⟩ id
    rw [Bool.eq_iff_iff, ← mem_ids_iff, ← mem_ids_iff, List.mem_map, List.mem_map]
    constructor
    · rintro ⟨x, hx, rfl⟩
      exact List.mem_map.1 (mem_ids_iff.2 (hold x hx))
    · rintro ⟨x, hx, rfl⟩
      exact List.mem_map.1 (mem_ids_iff.2 (hstay x hx))

instance (s s' : Roster) : Decidable (s.Peers s') := decidable_of_iff' _ peers_iff

theorem size_eq_of_peers (h : s.Peers s') : s'.size = s.size := by
  have hids : ∀ id, id ∈ s'.list.map (·.id) ↔ id ∈ s.list.map (·.id) := by
    intro id
    rw [mem_ids_iff, mem_ids_iff, h id]
  have hperm := (List.perm_ext_iff_of_nodup s'.distinct s.distinct).2 hids
  have hlength := hperm.length_eq
  rwa [List.length_map, List.length_map] at hlength

theorem peers_put_over (h : s.get? r.id = some v) : s.Peers (s.put r) := by
  intro id
  rw [get?_put]
  split
  · rename_i hid
    rw [hid, h]
    rfl
  · rfl

/-- Dropping a record that is there makes the size less by one. -/
theorem size_erase (h : s.get? id = some v) : (s.erase id).size + 1 = s.size := by
  -- put back, the record makes up the same sessions as before
  have hid : v.id = id := id_of_get? h
  have hgone : (s.erase id).get? v.id = none := by rw [get?_erase, if_pos hid]
  have hpeers : s.Peers ((s.erase id).put v) := by
    intro id'
    rw [get?_put, get?_erase, hid]
    by_cases heq : id' = id
    · rw [if_pos heq, heq, h]
    · rw [if_neg heq, if_neg heq]
  rw [← size_put_new hgone, size_eq_of_peers hpeers]

/-! ## What becomes of records -/

/-- A record that ended has ended in the next content too, if it is there. -/
def Settles (s s' : Roster) : Prop :=
  ∀ id v v', s.get? id = some v → s'.get? id = some v' → v.isTerminal = true → v'.isTerminal = true

theorem settles_of_subset (h : ∀ id v, s'.get? id = some v → s.get? id = some v) : s.Settles s' := by
  intro id v v' hv hv' hend
  rw [h id v' hv'] at hv
  cases hv
  exact hend

/-- Whatever is gone had ended, and nothing that had ended was used longer ago. -/
def Evicts (s s' : Roster) : Prop :=
  ∀ id v, s.get? id = some v → s'.get? id = none →
    v.isTerminal = true ∧ ∀ w ∈ s.list, w.isTerminal = true → v.lastAccess ≤ w.lastAccess

theorem evicts_of_peers (h : s.Peers s') : s.Evicts s' := by
  intro id v hv hgone
  have hstays := h id
  rw [hv, hgone] at hstays
  cases hstays

end Roster

namespace Store

variable {s s' : Store} {r v : Record} {lines : List LogLine}

theorem settles_create (h : s.create r = .ok (s', lines)) : s.records.Settles s'.records := by
  obtain ⟨hnew, _, hothers⟩ := read_create h
  intro id v v' hv hv' hend
  by_cases hid : id = r.id
  · rw [hid] at hv
    exact absurd (hnew.symm.trans hv) (by simp)
  · rcases hothers id hid with hsame | ⟨_, hgone, _⟩
    · have heq : some v' = some v := hv'.symm.trans (hsame.trans hv)
      cases heq
      exact hend
    · exact absurd (hgone.symm.trans hv') (by simp)

theorem settles_update (h : s.update r = .ok s') : s.records.Settles s'.records := by
  intro id v v' hv hv' hend
  have hread : s'.read id = if id = r.id then some r else s.read id := read_update h id
  by_cases hid : id = r.id
  · rw [if_pos hid] at hread
    cases hread.symm.trans hv'
    exact isTerminal_of_update h (hid ▸ hv) hend
  · rw [if_neg hid] at hread
    cases (hread.symm.trans hv').symm.trans hv
    exact hend

theorem settles_remove (s : Store) (id : Id) : s.records.Settles (s.remove id).2.records := by
  refine Roster.settles_of_subset fun id' v hv => ?_
  have hread : (s.remove id).2.read id' = some v := hv
  rw [read_remove] at hread
  split at hread
  · cases hread
  · exact hread

theorem settles_purge (s : Store) : s.records.Settles s.purge.2.records := by
  refine Roster.settles_of_subset fun id v hv => ?_
  have hread : s.purge.2.read id = some v := hv
  rw [read_purge] at hread
  exact (Option.filter_eq_some_iff.1 hread).1

theorem peers_update (h : s.update r = .ok s') : s.records.Peers s'.records := by
  obtain ⟨⟨stored, hstored⟩, hs'⟩ := update_eq_ok h
  rw [hs']
  exact Roster.peers_put_over hstored

/-- The room for a new record: what is gone had ended and was used longest ago. -/
theorem evicts_create (h : s.create r = .ok (s', lines)) : s.records.Evicts s'.records := by
  obtain ⟨hnew, room, hroom, hs'⟩ := create_eq_ok h
  intro id v hv hgone
  have hid : id ≠ r.id := by
    rintro rfl
    exact absurd (hnew.symm.trans hv) (by simp)
  rw [hs', Roster.get?_put, if_neg hid] at hgone
  rcases hroom with rfl | ⟨_, x, hx, rfl⟩
  · exact absurd (hgone.symm.trans hv) (by simp)
  · -- the victim is the only one that is gone
    rw [Roster.get?_erase] at hgone
    obtain ⟨hmem, hend⟩ := Roster.oldestEnded_spec hx
    by_cases hvictim : id = x.id
    · rw [hvictim, Roster.get?_of_mem hmem] at hv
      cases hv
      exact ⟨hend, fun w hw hended => Roster.lastAccess_oldestEnded_le hx hw hended⟩
    · rw [if_neg hvictim] at hgone
      exact absurd (hgone.symm.trans hv) (by simp)

/-- A store that is full, or over-full, keeps its size; another one grows by one. -/
theorem size_create (h : s.create r = .ok (s', lines)) :
    s'.size = if s.isFull then s.size else s.size + 1 := by
  obtain ⟨hnew, ⟨hroom, rfl⟩ | ⟨hfull, v, hv, rfl⟩⟩ := create_cases h
  · rw [if_neg (Bool.eq_false_iff.1 hroom)]
    exact Roster.size_put_new hnew
  · rw [if_pos hfull]
    obtain ⟨hmem, _⟩ := Roster.oldestEnded_spec hv
    have hgone : (s.records.erase v.id).get? r.id = none := by
      rw [Roster.get?_erase]
      exact ite_eq_left_iff.2 fun _ => hnew
    exact (Roster.size_put_new hgone).trans (Roster.size_erase (Roster.get?_of_mem hmem))

end Store
end Sessions
