import Mathlib.Data.List.Nodup
import Sessions.Proofs.Record.Life
import Sessions.Store

/-!
# Sessions.Proofs.Store.Contents

What the operations of the store do to its content, seen id by id.

* `Roster.oldestEnded_spec`: the record that is dropped for room is a stored one that ended.
* `Store.create_cases`, `Store.update_eq_ok`: what becomes of the whole store where nothing fails.
* `Store.read_create`, `Store.read_update`, `Store.read_remove`, `Store.read_purge`: the content
  behind each operation.
* `Store.create_ok_of_terminal`: a store that holds an ended record is never full.
-/

namespace Sessions

namespace Roster

theorem get?_of_mem {s : Roster} {r : Record} (h : r ∈ s.list) : s.get? r.id = some r := by
  cases hget : s.get? r.id with
  | none =>
    rw [get?, List.find?_eq_none] at hget
    exact absurd (decide_eq_true rfl) (hget r h)
  | some r' =>
    have hid := id_of_get? hget
    have hmem : r' ∈ s.list := List.mem_of_find?_eq_some hget
    rw [List.inj_on_of_nodup_map s.distinct hmem h hid]

theorem mem_of_get? {s : Roster} {id : Id} {r : Record} (h : s.get? id = some r) : r ∈ s.list :=
  List.mem_of_find?_eq_some h

theorem contains_eq_false_iff {s : Roster} {id : Id} : s.contains id = false ↔ s.get? id = none := by
  simp [contains]

theorem oldestEnded_spec {l : List Record} {v : Record} (h : oldestEnded l = some v) :
    v ∈ l ∧ v.isTerminal = true := by
  induction l generalizing v with
  | nil => cases h
  | cons r rs ih =>
    rw [oldestEnded] at h
    cases hrest : oldestEnded rs with
    | none =>
      rw [hrest] at h
      by_cases hr : r.isTerminal
      · rw [if_pos hr] at h
        cases h
        exact ⟨List.mem_cons_self, hr⟩
      · rw [if_neg hr] at h
        cases h
    | some b =>
      rw [hrest] at h
      obtain ⟨hmem, hend⟩ := ih hrest
      by_cases hr : r.isTerminal ∧ r.lastAccess ≤ b.lastAccess
      · simp only [if_pos hr] at h
        cases h
        exact ⟨List.mem_cons_self, hr.1⟩
      · simp only [if_neg hr] at h
        cases h
        exact ⟨List.mem_cons_of_mem r hmem, hend⟩

theorem exists_oldestEnded {l : List Record} {r : Record} (hmem : r ∈ l)
    (hend : r.isTerminal = true) : ∃ v, oldestEnded l = some v := by
  induction l with
  | nil => cases hmem
  | cons x xs ih =>
    rw [oldestEnded]
    cases hrest : oldestEnded xs with
    | none =>
      rcases List.mem_cons.1 hmem with rfl | hmem
      · exact ⟨r, if_pos hend⟩
      · obtain ⟨v, hv⟩ := ih hmem
        rw [hrest] at hv
        cases hv
    | some b =>
      by_cases hx : x.isTerminal ∧ x.lastAccess ≤ b.lastAccess
      · exact ⟨x, if_pos hx⟩
      · exact ⟨b, if_neg hx⟩

end Roster

namespace Store

variable {s s' : Store} {r : Record} {lines : List LogLine}

/-- The records that stay when room is made for one more. -/
def Room (s : Store) (room : Roster) : Prop :=
  room = s.records ∨
    s.isFull = true ∧ ∃ v, Roster.oldestEnded s.records.list = some v ∧ room = s.records.erase v.id

/-- The store without the record that makes room for another one. -/
def dismiss (s : Store) (v : Record) : Store :=
  { s with records := s.records.erase v.id, evictions := s.evictions + 1 }

/-- A creation takes in a record whose id is new. A full store dismisses one for it. -/
theorem create_cases (h : s.create r = .ok (s', lines)) :
    s.read r.id = none ∧
      (s.isFull = false ∧ s' = s.insert r ∨
        s.isFull = true ∧
          ∃ v, Roster.oldestEnded s.records.list = some v ∧ s' = (s.dismiss v).insert r) := by
  unfold create at h
  split at h
  · cases h
  · rename_i hnew
    refine ⟨Roster.contains_eq_false_iff.1 (Bool.eq_false_iff.2 hnew), ?_⟩
    split at h
    · rename_i hfull
      unfold evict? at h
      cases hv : Roster.oldestEnded s.records.list with
      | none => rw [hv] at h; cases h
      | some v =>
        rw [hv] at h
        cases h
        exact .inr ⟨hfull, v, rfl, rfl⟩
    · rename_i hroom
      cases h
      exact .inl ⟨Bool.eq_false_iff.2 hroom, rfl⟩

theorem create_eq_ok (h : s.create r = .ok (s', lines)) :
    s.read r.id = none ∧ ∃ room, s.Room room ∧ s'.records = room.put r := by
  obtain ⟨hnew, ⟨_, rfl⟩ | ⟨hfull, v, hv, rfl⟩⟩ := create_cases h
  · exact ⟨hnew, s.records, .inl rfl, rfl⟩
  · exact ⟨hnew, s.records.erase v.id, .inr ⟨hfull, v, hv, rfl⟩, rfl⟩

/-- Making room drops at most one record, which ended. -/
theorem Room.get? {room : Roster} (h : s.Room room) (id : Id) :
    room.get? id = s.read id ∨
      s.isFull = true ∧ room.get? id = none ∧ ∃ v, s.read id = some v ∧ v.isTerminal = true := by
  rcases h with rfl | ⟨hfull, v, hv, rfl⟩
  · exact Or.inl rfl
  · obtain ⟨hmem, hend⟩ := Roster.oldestEnded_spec hv
    rw [Roster.get?_erase]
    by_cases hid : id = v.id
    · rw [if_pos hid]
      exact Or.inr ⟨hfull, rfl, v, hid ▸ Roster.get?_of_mem hmem, hend⟩
    · rw [if_neg hid]
      exact Or.inl rfl

/-- Behind a creation the new record is there, and at most one other is gone, which ended. -/
theorem read_create (h : s.create r = .ok (s', lines)) :
    s.read r.id = none ∧ s'.read r.id = some r ∧ ∀ id, id ≠ r.id →
      s'.read id = s.read id ∨
        s.isFull = true ∧ s'.read id = none ∧ ∃ v, s.read id = some v ∧ v.isTerminal = true := by
  obtain ⟨hnew, room, hroom, hs'⟩ := create_eq_ok h
  have hread : ∀ id, s'.read id = if id = r.id then some r else room.get? id := by
    intro id
    rw [read, hs', Roster.get?_put]
  refine ⟨hnew, ?_, ?_⟩
  · rw [hread, if_pos rfl]
  · intro id hid
    rw [hread, if_neg hid]
    exact hroom.get? id

/-- The store with a record written over its namesake. -/
def rewrite (s : Store) (r : Record) : Store :=
  { s with records := s.records.put r, updates := s.updates + 1 }

theorem update_eq_ok (h : s.update r = .ok s') :
    (∃ stored, s.read r.id = some stored) ∧ s' = s.rewrite r := by
  unfold update at h
  split at h
  · cases h
  · rename_i stored hstored
    split at h
    · cases h
    · cases h
      exact ⟨⟨stored, hstored⟩, rfl⟩

theorem read_rewrite (s : Store) (r : Record) (id : Id) :
    (s.rewrite r).read id = if id = r.id then some r else s.read id :=
  Roster.get?_put s.records r id

theorem read_update (h : s.update r = .ok s') (id : Id) :
    s'.read id = if id = r.id then some r else s.read id := by
  rw [(update_eq_ok h).2, read_rewrite]

theorem read_remove (s : Store) (id id' : Id) :
    (s.remove id).2.read id' = if id' = id then none else s.read id' := by
  unfold remove
  by_cases h : s.contains id
  · rw [if_pos h]
    exact Roster.get?_erase s.records id id'
  · rw [if_neg h]
    by_cases hid : id' = id
    · rw [if_pos hid, hid]
      exact Roster.contains_eq_false_iff.1 (Bool.eq_false_iff.2 h)
    · rw [if_neg hid]

theorem read_purge (s : Store) (id : Id) :
    s.purge.2.read id = (s.read id).filter (!·.isTerminal) :=
  Roster.get?_filter s.records _ id

/-- A live record can be written back over a live one, and an ended one over any. -/
theorem update_ok_of_live {stored : Record} (h : s.read r.id = some stored)
    (hlive : stored.isTerminal = false) : s.update r = .ok (s.rewrite r) := by
  unfold update
  have hfault : revivalFault? stored r = none := by
    unfold revivalFault?
    split
    · rfl
    · exact Record.endFault?_eq_none_iff.2 hlive
  rw [h]
  simp only [hfault]
  rfl

/-- A live record is refused over one that ended, with the fault of the end. -/
theorem exists_update_eq_error {v : Record} (h : s.read r.id = some v) (hend : v.isTerminal = true)
    (hlive : r.isTerminal = false) : ∃ f, v.endFault? = some f ∧ s.update r = .error f := by
  obtain ⟨f, hf⟩ := Record.exists_endFault_of_terminal hend
  exact ⟨f, hf, by simp [update, h, revivalFault?, hlive, hf]⟩

/-- What is taken over a record that ended has ended as well. -/
theorem isTerminal_of_update {v : Record} (h : s.update r = .ok s') (hread : s.read r.id = some v)
    (hend : v.isTerminal = true) : r.isTerminal = true := by
  by_contra hlive
  obtain ⟨f, _, hrefused⟩ := exists_update_eq_error hread hend (Bool.eq_false_iff.2 hlive)
  rw [hrefused] at h
  cases h

/-- Where a record ended, the store is never full for a new one. -/
theorem create_ok_of_terminal {v : Record} (hnew : s.read r.id = none) {id : Id}
    (hv : s.read id = some v) (hend : v.isTerminal = true) :
    ∃ s' lines, s.create r = .ok (s', lines) := by
  have hcontains : ¬s.contains r.id := by
    rw [Bool.not_eq_true]
    exact Roster.contains_eq_false_iff.2 hnew
  unfold create
  rw [if_neg hcontains]
  by_cases hfull : s.isFull
  · obtain ⟨w, hw⟩ := Roster.exists_oldestEnded (Roster.mem_of_get? hv) hend
    rw [if_pos hfull]
    simp only [evict?, hw, Option.map_some]
    exact ⟨_, _, rfl⟩
  · rw [if_neg hfull]
    exact ⟨_, _, rfl⟩

theorem contains_of_read {id : Id} {v : Record} (h : s.read id = some v) : s.contains id = true := by
  have hget : s.records.get? id = some v := h
  rw [contains, Roster.contains, hget]
  rfl

/-- An id that is taken stays with its record. -/
theorem create_of_stored {v : Record} (h : s.read r.id = some v) :
    s.create r = .error (Fault.duplicate r.id) := by
  rw [create, if_pos (contains_of_read h)]

theorem read_new (p : StorePolicy) (id : Id) : (Store.new p).read id = none := rfl

end Store
end Sessions
