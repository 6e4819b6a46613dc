import Sessions.Record

/-!
# Sessions.Store.Roster

Records by id: a list in which no id occurs twice. The id that came in last stands first, and a
record that is written again keeps its place.
`Roster.get?` is the view, and `get?_put`, `get?_erase`, `get?_filter` say what the operations do
to it.
-/

namespace Sessions

structure Roster where
  list : List Record
  distinct : (list.map (·.id)).Nodup
deriving Repr

namespace Roster

def empty : Roster := ⟨[], List.nodup_nil⟩

instance : Inhabited Roster := ⟨empty⟩

def get? (s : Roster) (id : Id) : Option Record := s.list.find? (·.id = id)

def contains (s : Roster) (id : Id) : Bool := (s.get? id).isSome

def size (s : Roster) : Nat := s.list.length

/-- A list of records with one put over its namesake. -/
def overwrite (r : Record) (l : List Record) : List Record :=
  l.map fun x => if x.id = r.id then r else x

theorem map_id_overwrite (r : Record) (l : List Record) :
    (overwrite r l).map (·.id) = l.map (·.id) := by
  simp only [overwrite, List.map_map, List.map_inj_left, Function.comp_apply]
  intro x _
  split
  · rename_i hx
    exact hx.symm
  · rfl

theorem nodup_overwrite {r : Record} {l : List Record} (h : (l.map (·.id)).Nodup) :
    ((overwrite r l).map (·.id)).Nodup := by
  rwa [map_id_overwrite]

theorem not_mem_of_contains_eq_false {s : Roster} {id : Id} (h : s.contains id = false) :
    id ∉ s.list.map (·.id) := by
  simp only [contains, get?, Option.isSome_eq_false_iff, Option.isNone_iff_eq_none,
    List.find?_eq_none, decide_eq_true_eq] at h
  simpa using h

/-- Write a record over the one of the same id, or before the others. -/
def put (s : Roster) (r : Record) : Roster :=
  if h : s.contains r.id then ⟨overwrite r s.list, nodup_overwrite s.distinct⟩
  else ⟨r :: s.list, List.nodup_cons.2
    ⟨not_mem_of_contains_eq_false (Bool.eq_false_iff.2 h), s.distinct⟩⟩

theorem nodup_filter {p : Record → Bool} {l : List Record} (h : (l.map (·.id)).Nodup) :
    ((l.filter p).map (·.id)).Nodup :=
  h.sublist ((List.filter_sublist (p := p)).map _)

def filter (s : Roster) (p : Record → Bool) : Roster := ⟨s.list.filter p, nodup_filter s.distinct⟩

def erase (s : Roster) (id : Id) : Roster := s.filter (·.id ≠ id)

def live (s : Roster) : List Record := s.list.filter (!·.isTerminal)

/-- Among the records that ended the one used longest ago; of several the first, which is the one
that came in last. -/
def oldestEnded : List Record → Option Record
  | [] => none
  | r :: rs =>
    match oldestEnded rs with
    | none => if r.isTerminal then some r else none
    | some b => if r.isTerminal ∧ r.lastAccess ≤ b.lastAccess then some r else some b

/-! ## What the operations do to the view -/

@[simp] theorem get?_empty (id : Id) : empty.get? id = none := rfl

theorem id_of_get? {s : Roster} {id : Id} {r : Record} (h : s.get? id = some r) : r.id = id := by
  have := List.find?_some h
  simpa using this

theorem find?_overwrite (r : Record) (l : List Record) (id : Id) :
    (overwrite r l).find? (·.id = id) =
      (l.find? (·.id = id)).map fun x => if x.id = r.id then r else x := by
  induction l with
  | nil => rfl
  | cons x xs ih =>
    have hid : (if x.id = r.id then r else x).id = x.id := by
      split
      · rename_i hx
        exact hx.symm
      · rfl
    simp only [overwrite, List.map_cons, List.find?_cons, hid]
    split
    · rfl
    · exact ih

theorem get?_put (s : Roster) (r : Record) (id : Id) :
    (s.put r).get? id = if id = r.id then some r else s.get? id := by
  unfold put
  split
  · rename_i h
    obtain ⟨x, hx⟩ := Option.isSome_iff_exists.1 h
    simp only [get?, find?_overwrite]
    by_cases hid : id = r.id
    · subst hid
      have := id_of_get? hx
      simp only [get?] at hx
      simp [hx, this]
    · simp only [hid, if_false]
      cases hf : s.list.find? (·.id = id) with
      | none => rfl
      | some y =>
        have hy : y.id = id := id_of_get? hf
        simp [hy, hid]
  · by_cases hid : id = r.id
    · simp [get?, hid]
    · simp [get?, hid, Ne.symm hid]

theorem get?_erase (s : Roster) (id id' : Id) :
    (s.erase id).get? id' = if id' = id then none else s.get? id' := by
  obtain ⟨l, hl⟩ := s
  simp only [get?, erase, filter]
  clear hl
  induction l with
  | nil => simp
  | cons x xs ih =>
    by_cases h : x.id = id
    · simp only [List.filter_cons, h, ne_eq, not_true_eq_false, decide_false, Bool.false_eq_true,
        if_false, ih, List.find?_cons]
      by_cases h' : id' = id
      · simp [h']
      · simp [h', Ne.symm h']
    · simp only [List.filter_cons, ne_eq, h, not_false_eq_true, decide_true, if_true,
        List.find?_cons, ih]
      by_cases h' : x.id = id'
      · subst h'
        simp [h]
      · simp [h']

theorem get?_filter (s : Roster) (p : Record → Bool) (id : Id) :
    (s.filter p).get? id = (s.get? id).filter p := by
  obtain ⟨l, hl⟩ := s
  simp only [get?, filter]
  induction l with
  | nil => rfl
  | cons x xs ih =>
    simp only [List.map_cons, List.nodup_cons] at hl
    have hrest := ih hl.2
    by_cases hx : x.id = id
    · have hnone : xs.find? (·.id = id) = none := by
        simp only [List.find?_eq_none, decide_eq_true_eq]
        intro y hy he
        exact hl.1 (hx ▸ he ▸ List.mem_map_of_mem hy)
      by_cases hp : p x
      · simp [hp, hx, Option.filter]
      · simp [hp, hx, hrest, hnone, Option.filter]
    · by_cases hp : p x
      · simp [hp, hx, hrest]
      · simp [hp, hx, hrest]

end Roster
end Sessions
