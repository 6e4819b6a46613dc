import Mathlib.Logic.Function.Basic
import Sessions.Proofs.Attributes.Contents
import Sessions.Proofs.Record.Effect

/-!
# Sessions.Proofs.Record.Mapping

The attributes of a record as a mapping from keys to values, and what the operations by id are on it: some
write to it, some read from it, the others have nothing to do with it.

* `Call.writes`, `Call.Reads`: the operations on a mapping.
* `Call.reads_of_effect`, `Call.writes_of_effect`: what they come to on a record is what they are on its
  mapping.
-/

namespace Sessions

def Record.mapping (r : Record) : Mapping := r.attributes.get?

namespace Call

/-- The mapping behind an operation that went through. -/
def writes : Call → Mapping → Mapping
  | .set key value, m => Function.update m key (if value = .absent then none else some value)
  | .remove key, m => Function.update m key none
  | _, m => m

/-- What an operation answers about attributes is what stands in the mapping. -/
def Reads : (c : Call) → c.Result → Mapping → Prop
  | .get key, v, m => v = m key
  | .keys, ks, m => ks.Pairwise (· < ·) ∧ ∀ key, key ∈ ks ↔ (m key).isSome = true
  | .remove key, v, m => v = m key
  | _, _, _ => True

end Call

namespace Record

variable {r r' : Record} {now : Timestamp} {key : Text}

theorem mapping_without (r : Record) (key : Text) (now : Timestamp) :
    (r.without key now).mapping = Function.update r.mapping key none := by
  cases hkey : r.attributes.get? key with
  | none =>
    rw [without_of_none hkey]
    exact (Function.update_eq_self_iff.2 hkey.symm).symm
  | some v =>
    funext k
    rw [Function.update_apply, without, Attributes.erase, hkey]
    exact Attributes.get?_erase _ _ _

theorem mapping_remove {v : Option Value} (h : r.remove key now = .ok (v, r')) :
    v = r.mapping key ∧ r'.mapping = Function.update r.mapping key none := by
  obtain ⟨rfl, rfl⟩ := remove_eq_ok h
  exact ⟨rfl, mapping_without r key now⟩

theorem mapping_set {value : Value} (hvalue : value ≠ .absent) (h : r.set key value now = .ok r') :
    r'.mapping = Function.update r.mapping key (some value) := by
  unfold set at h
  rw [if_neg hvalue] at h
  split at h
  · cases h
  · obtain ⟨_, rfl⟩ := amend_eq_ok_iff.1 h
    funext k
    rw [Function.update_apply]
    exact Attributes.get?_set _ _ _ _

end Record

namespace Call

variable {c : Call} {r : Record} {now : Timestamp} {a : c.Result} {changed : Option Record}

theorem reads_of_effect (h : c.effect r now = .ok (a, changed)) : c.Reads a r.mapping := by
  cases c with
  | get key =>
    cases h
    rfl
  | keys =>
    cases h
    exact ⟨r.attributes.keys_ascending, fun _ => Attributes.mem_keys_iff⟩
  | remove key =>
    rw [effect] at h
    cases hremove : r.remove key now with
    | error f =>
      rw [hremove] at h
      cases h
    | ok p =>
      rw [hremove] at h
      cases h
      exact (Record.mapping_remove hremove).1
  | _ => trivial

theorem mapping_of_removal {α : Type} {key : Text} (answer : Option Value → α) {a : α}
    (h : ((r.remove key now).map fun (v, r') => (answer v, if v.isSome then some r' else none)) =
      .ok (a, changed)) : (changed.getD r).mapping = Function.update r.mapping key none := by
  cases hremove : r.remove key now with
  | error f =>
    rw [hremove] at h
    cases h
  | ok p =>
    rw [hremove] at h
    cases h
    obtain ⟨hanswer, hmapping⟩ := Record.mapping_remove hremove
    cases hv : p.1 with
    | some v => exact hmapping
    | none =>
      -- there was nothing to remove
      have hnothing : r.mapping key = none := hanswer.symm.trans hv
      exact (Function.update_eq_self_iff.2 hnothing.symm).symm

/-- What is written goes to the mapping as it goes to the record. -/
theorem writes_of_effect (h : c.effect r now = .ok (a, changed)) :
    (changed.getD r).mapping = c.writes r.mapping := by
  cases c with
  | setTimeout limit =>
    rw [effect] at h
    cases hset : r.setTimeout limit <;> rw [hset] at h <;> cases h
    obtain ⟨_, rfl⟩ := Record.amend_eq_ok_iff.1 hset
    rfl
  | touch =>
    rw [effect] at h
    cases htouch : r.touch now <;> rw [htouch] at h <;> cases h
    obtain ⟨_, rfl⟩ := Record.amend_eq_ok_iff.1 htouch
    rfl
  | stop =>
    rw [effect] at h
    cases hstop : r.stop now <;> rw [hstop] at h <;> cases h
    obtain ⟨_, rfl⟩ := Record.stop_eq_ok_iff.1 hstop
    rfl
  | remove key => exact mapping_of_removal (fun v => v) h
  | set key value =>
    rw [effect] at h
    by_cases hvalue : value = .absent
    · rw [if_pos hvalue] at h
      rw [writes, if_pos hvalue]
      exact mapping_of_removal (fun _ => ()) h
    · rw [if_neg hvalue] at h
      rw [writes, if_neg hvalue]
      cases hset : r.set key value now <;> rw [hset] at h <;> cases h
      exact Record.mapping_set hvalue hset
  | _ =>
    cases h
    rfl

end Call
end Sessions
