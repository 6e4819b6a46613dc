import Sessions.Text.Significant

/-!
# Sessions.Attributes

Attribute values, and the attributes of a session: a finite map from keys to values, kept as a list
in strictly ascending key order. Two maps with the same keys and values are therefore the same list,
in whatever order they were filled.

* `Attributes.get?` is the view; `get?_set`, `get?_erase` and `get?_empty` say what the operations
  do to it.
* `Value.same` compares values as a program does: kinds first, numbers by value.
-/

namespace Sessions

/-- What an attribute holds. `absent` is the explicit "no value". -/
inductive Value where
  | text (t : Text)
  | int (n : Int64)
  | double (bits : Binary64)
  | bool (b : Bool)
  | absent
deriving DecidableEq, Repr

namespace Value

def render : Value → Text
  | .text t => "\"" ++ t ++ "\""
  | .int n => Text.ofInt n.toInt
  | .double b => b.text
  | .bool b => if b then "true" else "false"
  | .absent => "null"

/-- Values of different kinds differ; floating point numbers are compared by value. -/
def same : Value → Value → Bool
  | .double a, .double b => a.same b
  | a, b => a == b

end Value

/-! ## Sorted entries -/

abbrev Entry := Text × Value

namespace Entries

def Ascending (es : List Entry) : Prop := es.Pairwise fun a b => a.1 < b.1

def get? (k : Text) : List Entry → Option Value
  | [] => none
  | e :: es => if k = e.1 then some e.2 else get? k es

/-- Put a value at its place, over any value of the same key. -/
def set (k : Text) (v : Value) : List Entry → List Entry
  | [] => [(k, v)]
  | e :: es =>
    if k < e.1 then (k, v) :: e :: es
    else if k = e.1 then (k, v) :: es
    else e :: set k v es

theorem lt_of_not_lt {a b : Text} (h : ¬a < b) (hne : a ≠ b) : b < a := by
  apply Decidable.byContradiction
  intro hba
  exact hne (List.le_antisymm (List.not_lt.mp hba) (List.not_lt.mp h))

theorem key_of_mem_set {k : Text} {v : Value} {es : List Entry} {e : Entry} (h : e ∈ set k v es) :
    e.1 = k ∨ e ∈ es := by
  induction es with
  | nil => simp [set] at h; simp [h]
  | cons f es ih =>
    simp only [set] at h
    split at h
    · simp only [List.mem_cons] at h ⊢
      rcases h with rfl | h
      · exact Or.inl rfl
      · exact Or.inr h
    · split at h
      · simp only [List.mem_cons] at h ⊢
        rcases h with rfl | h
        · exact Or.inl rfl
        · exact Or.inr (Or.inr h)
      · simp only [List.mem_cons] at h ⊢
        rcases h with rfl | h
        · exact Or.inr (Or.inl rfl)
        · exact (ih h).imp_right Or.inr

theorem ascending_set {k : Text} {v : Value} {es : List Entry} (h : Ascending es) :
    Ascending (set k v es) := by
  induction es with
  | nil => simp [set, Ascending]
  | cons e es ih =>
    simp only [Ascending, List.pairwise_cons] at h
    obtain ⟨he, hes⟩ := h
    simp only [set]
    split
    · rename_i hk
      simp only [Ascending, List.pairwise_cons, List.mem_cons]
      refine ⟨?_, he, hes⟩
      rintro a (rfl | ha)
      · exact hk
      · exact List.lt_trans hk (he a ha)
    · split
      · rename_i hk
        simp only [Ascending, List.pairwise_cons]
        exact ⟨fun a ha => hk ▸ he a ha, hes⟩
      · rename_i hk hne
        simp only [Ascending, List.pairwise_cons]
        refine ⟨fun a ha => ?_, ih hes⟩
        rcases key_of_mem_set ha with hak | ha
        · exact hak ▸ lt_of_not_lt hk hne
        · exact he a ha

theorem ascending_filter {p : Entry → Bool} {es : List Entry} (h : Ascending es) :
    Ascending (es.filter p) := List.Pairwise.filter p h

end Entries

/-! ## The map -/

/-- The attributes of a session, in ascending order of their keys. -/
structure Attributes where
  entries : List Entry
  ascending : Entries.Ascending entries
deriving DecidableEq, Repr

namespace Attributes

def empty : Attributes := ⟨[], List.Pairwise.nil⟩

instance : Inhabited Attributes := ⟨empty⟩

def get? (a : Attributes) (k : Text) : Option Value := Entries.get? k a.entries

def contains (a : Attributes) (k : Text) : Bool := (a.get? k).isSome

/-- Write a value, over any value of the same key. -/
def set (a : Attributes) (k : Text) (v : Value) : Attributes :=
  ⟨Entries.set k v a.entries, Entries.ascending_set a.ascending⟩

/-- Drop a key; the value is handed back if there was one. -/
def erase (a : Attributes) (k : Text) : Option Value × Attributes :=
  (a.get? k, ⟨a.entries.filter (·.1 != k), Entries.ascending_filter a.ascending⟩)

/-- Look a key up and write an empty text first where it is missing. -/
def getOrInsert (a : Attributes) (k : Text) : Value × Attributes :=
  match a.get? k with
  | some v => (v, a)
  | none => (.text [], a.set k (.text []))

/-- The attributes given by a list of pairs; of equal keys the first counts. -/
def ofList (es : List Entry) : Attributes :=
  es.foldr (fun e a => a.set e.1 e.2) empty

def keys (a : Attributes) : List Text := a.entries.map (·.1)

def size (a : Attributes) : Nat := a.entries.length

def same (a b : Attributes) : Bool :=
  a.size == b.size &&
    (a.entries.zip b.entries).all fun (e, f) => e.1 == f.1 && e.2.same f.2

/-! ## What the operations do to the view -/

@[simp] theorem get?_empty (k : Text) : empty.get? k = none := rfl

theorem get?_set (a : Attributes) (k k' : Text) (v : Value) :
    (a.set k v).get? k' = if k' = k then some v else a.get? k' := by
  obtain ⟨es, hes⟩ := a
  simp only [get?, set]
  clear hes
  induction es with
  | nil => rfl
  | cons e es ih =>
    simp only [Entries.set]
    split
    · rfl
    · split
      · rename_i hk
        simp only [Entries.get?]
        by_cases h : k' = k
        · simp [h]
        · simp [h, ← hk]
      · rename_i hne
        simp only [Entries.get?, ih]
        by_cases h : k' = e.1
        · simp [h, Ne.symm hne]
        · simp [h]

theorem get?_erase (a : Attributes) (k k' : Text) :
    (a.erase k).2.get? k' = if k' = k then none else a.get? k' := by
  obtain ⟨es, hes⟩ := a
  simp only [get?, erase]
  clear hes
  induction es with
  | nil => simp [Entries.get?]
  | cons e es ih =>
    by_cases hx : e.1 = k
    · simp only [List.filter_cons, hx, bne_self_eq_false, Bool.false_eq_true, if_false, ih,
        Entries.get?]
      by_cases h : k' = k <;> simp [h]
    · simp only [List.filter_cons, bne_iff_ne, ne_eq, hx, not_false_eq_true, if_true,
        Entries.get?, ih]
      by_cases h : k' = e.1
      · simp [h, hx]
      · simp [h]

end Attributes
end Sessions
