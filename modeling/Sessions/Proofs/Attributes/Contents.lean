import Mathlib.Data.List.Forall2
import Sessions.Attributes

/-!
# Sessions.Proofs.Attributes.Contents

Attributes are what stands under their keys. Whoever knows the value under every key knows the attributes,
and everything that can be asked about them.

* `Mapping`: what there is under every key; `Mapping.Lists`: the keys under which there is something.
* `Attributes.lists_keys`: the keys of attributes, each of them once and in order.
* `Attributes.same_iff`: equality of attributes is equality of values, key by key; `Attributes.ext_get?` is
  the stronger fact for values that are the same.
* `Attributes.get?_ofList`, `Attributes.get?_getOrInsert`: the operations that `Attributes.get?_set` and
  `Attributes.get?_erase` leave.
-/

namespace Sessions

/-- What there is under every key. -/
abbrev Mapping := Text → Option Value

namespace Mapping

/-- These are the keys under which there is something, each of them once, in the order of their bytes. -/
structure Lists (m : Mapping) (ks : List Text) : Prop where
  ascending : ks.Pairwise (· < ·)
  mem : ∀ key, key ∈ ks ↔ (m key).isSome = true

/-- Under every key there is nothing in either mapping, or there are values that are equal. -/
def Same (m m' : Mapping) : Prop := ∀ key, Option.Rel (fun v w => v.same w = true) (m key) (m' key)

theorem Lists.nodup {m : Mapping} {ks : List Text} (h : m.Lists ks) : ks.Nodup := by
  refine h.ascending.imp fun hlt heq => ?_
  rw [heq] at hlt
  exact List.lt_irrefl _ hlt

end Mapping

/-! ## Entries in order -/

namespace Entries

variable {es fs : List Entry} {e f : Entry} {k : Text}

theorem get?_cons_self (e : Entry) (es : List Entry) : get? e.1 (e :: es) = some e.2 := if_pos rfl

theorem get?_cons_of_ne (h : k ≠ e.1) : get? k (e :: es) = get? k es := if_neg h

/-- Nothing stands under a key that comes before all others. -/
theorem get?_of_lt (h : ∀ e ∈ es, k < e.1) : get? k es = none := by
  induction es with
  | nil => rfl
  | cons e es ih =>
    obtain ⟨he, hes⟩ := List.forall_mem_cons.1 h
    have hne : k ≠ e.1 := by
      intro heq
      rw [heq] at he
      exact List.lt_irrefl _ he
    rw [get?_cons_of_ne hne, ih hes]

/-- A key that comes before the first entry is not found. -/
theorem get?_cons_of_lt (h : Ascending (e :: es)) (hk : k < e.1) : get? k (e :: es) = none := by
  obtain ⟨he, _⟩ := List.pairwise_cons.1 h
  refine get?_of_lt fun f hf => ?_
  rcases List.mem_cons.1 hf with rfl | hf
  · exact hk
  · exact List.lt_trans hk (he f hf)

theorem fst_eq_of_rel {R : Value → Value → Prop} (hes : Ascending (e :: es)) (hfs : Ascending (f :: fs))
    (h : ∀ k, Option.Rel R (get? k (e :: es)) (get? k (f :: fs))) : e.1 = f.1 := by
  by_contra hne
  by_cases hlt : e.1 < f.1
  · have hrel := h e.1
    rw [get?_cons_self, get?_cons_of_lt hfs hlt] at hrel
    cases hrel
  · have hrel := h f.1
    rw [get?_cons_self, get?_cons_of_lt hes (lt_of_not_lt hlt hne)] at hrel
    cases hrel

/-- Entries in order agree one by one where they agree key by key. -/
theorem forall₂_iff {R : Value → Value → Prop} (hes : Ascending es) (hfs : Ascending fs) :
    List.Forall₂ (fun e f => e.1 = f.1 ∧ R e.2 f.2) es fs ↔
      ∀ k, Option.Rel R (get? k es) (get? k fs) := by
  constructor
  · intro h k
    induction h with
    | nil => exact .none
    | @cons e f es fs hef _ ih =>
      obtain ⟨hkey, hvalue⟩ := hef
      by_cases hk : k = e.1
      · rw [hk, get?_cons_self, hkey, get?_cons_self]
        exact .some hvalue
      · rw [get?_cons_of_ne hk, get?_cons_of_ne (hkey ▸ hk)]
        exact ih (List.Pairwise.of_cons hes) (List.Pairwise.of_cons hfs)
  · intro h
    induction es generalizing fs with
    | nil =>
      cases fs with
      | nil => exact .nil
      | cons f fs =>
        have hrel := h f.1
        rw [get?_cons_self] at hrel
        cases hrel
    | cons e es ih =>
      cases fs with
      | nil =>
        have hrel := h e.1
        rw [get?_cons_self] at hrel
        cases hrel
      | cons f fs =>
        have hkey : e.1 = f.1 := fst_eq_of_rel hes hfs h
        have hvalue : R e.2 f.2 := by
          have hrel := h e.1
          rw [get?_cons_self, hkey, get?_cons_self] at hrel
          cases hrel with
          | some hvalue => exact hvalue
        refine .cons ⟨hkey, hvalue⟩
          (ih (List.Pairwise.of_cons hes) (List.Pairwise.of_cons hfs) fun k => ?_)
        by_cases hk : k = e.1
        · -- behind the first entry its key does not occur again
          rw [get?_of_lt fun e' he' => hk ▸ List.rel_of_pairwise_cons hes he',
            get?_of_lt fun f' hf' => hk ▸ hkey ▸ List.rel_of_pairwise_cons hfs hf']
          exact .none
        · have hrel := h k
          rwa [get?_cons_of_ne hk, get?_cons_of_ne (hkey ▸ hk)] at hrel

end Entries

/-! ## Attributes -/

namespace Attributes

variable {a b : Attributes}

theorem mem_keys_iff {key : Text} : key ∈ a.keys ↔ (a.get? key).isSome = true := by
  obtain ⟨es, hascending⟩ := a
  simp only [keys, get?]
  clear hascending
  induction es with
  | nil => simp [Entries.get?]
  | cons e es ih =>
    rw [List.map_cons, List.mem_cons, ih, Entries.get?]
    by_cases hkey : key = e.1 <;> simp [hkey]

theorem keys_ascending (a : Attributes) : a.keys.Pairwise (· < ·) :=
  List.pairwise_map.2 a.ascending

theorem lists_keys (a : Attributes) : Mapping.Lists a.get? a.keys :=
  ⟨a.keys_ascending, fun _ => mem_keys_iff⟩

theorem length_keys (a : Attributes) : a.keys.length = a.size := List.length_map _

theorem size_eq_zero_iff : a.size = 0 ↔ ∀ key, a.get? key = none := by
  rw [← length_keys, List.length_eq_zero_iff, List.eq_nil_iff_forall_not_mem]
  simp only [mem_keys_iff, Bool.not_eq_true, Option.isSome_eq_false_iff, Option.isNone_iff_eq_none]

theorem same_iff : a.same b = true ↔ Mapping.Same a.get? b.get? := by
  have hforall := Entries.forall₂_iff (R := fun v w => v.same w = true) a.ascending b.ascending
  rw [List.forall₂_iff_zip] at hforall
  refine Iff.trans ?_ hforall
  simp [same, size]

theorem ext_get? (h : ∀ key, a.get? key = b.get? key) : a = b := by
  have hforall : List.Forall₂ (fun e f : Entry => e.1 = f.1 ∧ e.2 = f.2) a.entries b.entries := by
    refine (Entries.forall₂_iff a.ascending b.ascending).2 fun key => ?_
    have hsame : Entries.get? key a.entries = Entries.get? key b.entries := h key
    rw [hsame]
    cases Entries.get? key b.entries with
    | none => exact .none
    | some v => exact .some rfl
  have hentries : a.entries = b.entries := by
    simpa only [← Prod.ext_iff, List.forall₂_eq_eq_eq] using hforall
  cases a
  cases b
  cases hentries
  rfl

theorem get?_ofList (es : List Entry) (key : Text) : (ofList es).get? key = es.lookup key := by
  induction es with
  | nil => rfl
  | cons e es ih =>
    have hset : (ofList (e :: es)).get? key = if key = e.1 then some e.2 else (ofList es).get? key :=
      get?_set (ofList es) e.1 key e.2
    rw [hset, ih, List.lookup_cons]
    by_cases hkey : key = e.1
    · rw [if_pos hkey, beq_iff_eq.2 hkey]
    · rw [if_neg hkey, beq_eq_false_iff_ne.2 hkey]

theorem fst_getOrInsert (a : Attributes) (key : Text) :
    (a.getOrInsert key).1 = (a.get? key).getD (.text []) := by
  unfold getOrInsert
  cases a.get? key <;> rfl

theorem get?_getOrInsert (a : Attributes) (key other : Text) :
    (a.getOrInsert key).2.get? other =
      if other = key then some ((a.get? key).getD (.text [])) else a.get? other := by
  cases hkey : a.get? key with
  | none =>
    have hinsert : (a.getOrInsert key).2 = a.set key (.text []) := by rw [getOrInsert, hkey]
    rw [hinsert]
    exact get?_set a key other (.text [])
  | some v =>
    have hthere : (a.getOrInsert key).2 = a := by rw [getOrInsert, hkey]
    rw [hthere]
    split
    · rename_i heq
      rw [heq, hkey, Option.getD_some]
    · rfl

/-- To write where one has just looked is to write. -/
theorem set_getOrInsert (a : Attributes) (key : Text) (v : Value) :
    (a.getOrInsert key).2.set key v = a.set key v := by
  refine ext_get? fun other => ?_
  rw [get?_set, get?_set, get?_getOrInsert]
  by_cases h : other = key <;> simp [h]

end Attributes
end Sessions
