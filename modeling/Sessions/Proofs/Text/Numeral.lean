import Mathlib.Data.Int.ModEq
import Sessions.Proofs.Text.Decimal
import Sessions.Proofs.Text.Pieces

/-!
# Sessions.Proofs.Text.Numeral

What reading a number accepts. A text begins with a numeral where it is white space, a sign or none, digits,
and then something that is no digit; what follows the digits makes no difference.

* `Numeral.Leads`: a text that begins with a numeral. `Numeral.scan?_eq_some_iff`: it is what is found.
* `Text.Begins`: a text that begins with an integer. `Text.leadingInt64?_eq_some_iff`: it is what is read,
  if 64 bits hold it.
* `Text.Counted`: a text that begins with a count. `Text.leadingCount?_eq_some_iff`: it is what is taken.
-/

namespace Sessions

namespace Numeral

open Text

variable {t body : Text} {n n' : Numeral}

/-- The sign as it is written. A number that is not negative may have one. -/
def Signs (mark : Text) (negative : Bool) : Prop :=
  mark = [] ∧ negative = false ∨ mark = [byte '+'] ∧ negative = false ∨ mark = [byte '-'] ∧ negative = true

/-- The text begins with the numeral, behind white space. All digits that there are belong to it. -/
structure Leads (n : Numeral) (t : Text) : Prop where
  parts : ∃ spaces mark, t = spaces ++ mark ++ n.digits ++ n.rest ∧
    (∀ b ∈ spaces, isSpace b = true) ∧ Signs mark n.negative
  digits : Digits n.digits
  ne_nil : n.digits ≠ []
  stop : ∀ b ∈ n.rest.head?, isDigit b = false

theorem exists_sign (t : Text) : ∃ mark, t = mark ++ (sign t).2 ∧ Signs mark (sign t).1 := by
  fun_cases sign t with
  | case1 => exact ⟨[], rfl, .inl ⟨rfl, rfl⟩⟩
  | case2 t => exact ⟨[byte '-'], rfl, .inr (.inr ⟨rfl, rfl⟩)⟩
  | case3 t => exact ⟨[byte '+'], rfl, .inr (.inl ⟨rfl, rfl⟩)⟩
  | case4 b t => exact ⟨[], rfl, .inl ⟨rfl, rfl⟩⟩

theorem sign_append {mark : Text} {negative : Bool} (h : Signs mark negative)
    (hbody : ∃ b ∈ body.head?, isDigit b = true) : sign (mark ++ body) = (negative, body) := by
  obtain ⟨b, hb, hdigit⟩ := hbody
  obtain ⟨rest, rfl⟩ := List.head?_eq_some_iff.1 hb
  rcases h with ⟨rfl, rfl⟩ | ⟨rfl, rfl⟩ | ⟨rfl, rfl⟩
  · have hminus : b ≠ byte '-' := fun heq => by rw [heq] at hdigit; cases hdigit
    have hplus : b ≠ byte '+' := fun heq => by rw [heq] at hdigit; cases hdigit
    rw [List.nil_append, sign, if_neg hminus, if_neg hplus]
  · rfl
  · rfl

theorem isSpace_of_isDigit {b : UInt8} (h : isDigit b = true) : isSpace b = false := by
  rw [isDigit_iff] at h
  simp only [isSpace, Bool.or_eq_false_iff, beq_eq_false_iff_ne, Bool.and_eq_false_iff,
    decide_eq_false_iff_not, UInt8.le_iff_toNat_le, ne_eq, ← UInt8.toNat_inj]
  refine ⟨fun h32 => ?_, .inr fun h13 => ?_⟩
  · rw [h32] at h
    exact absurd h.1 (by decide)
  · exact absurd (h.1.trans h13) (by decide)

/-- White space ends before a sign and before a digit. -/
theorem not_isSpace_of_signs {mark : Text} {negative : Bool} (h : Signs mark negative)
    (hbody : ∃ b ∈ body.head?, isDigit b = true) : ∀ b ∈ (mark ++ body).head?, isSpace b = false := by
  rcases h with ⟨rfl, rfl⟩ | ⟨rfl, rfl⟩ | ⟨rfl, rfl⟩
  · obtain ⟨b, hb, hdigit⟩ := hbody
    intro a ha
    rw [List.nil_append, hb] at ha
    rw [← Option.some.inj ha]
    exact isSpace_of_isDigit hdigit
  · rintro b ⟨⟩
    rfl
  · rintro b ⟨⟩
    rfl

theorem scan?_eq (t : Text) : scan? t =
    if (sign (t.dropWhile isSpace)).2.takeWhile isDigit = [] then none
    else some ⟨(sign (t.dropWhile isSpace)).1, (sign (t.dropWhile isSpace)).2.takeWhile isDigit,
      (sign (t.dropWhile isSpace)).2.dropWhile isDigit⟩ := by
  unfold scan?
  dsimp only
  split
  · rename_i hnil
    rw [if_pos hnil]
  · rename_i hne
    rw [if_neg hne]

/-- A numeral is found where a text begins with one, and it is that one. -/
theorem scan?_eq_some_iff : scan? t = some n ↔ n.Leads t := by
  rw [scan?_eq]
  constructor
  · intro h
    obtain ⟨mark, hmark, hsigns⟩ := exists_sign (t.dropWhile isSpace)
    split at h
    · cases h
    · rename_i hne
      cases h
      refine ⟨⟨t.takeWhile isSpace, mark, ?_, fun b => List.mem_takeWhile_imp, hsigns⟩,
        fun b => List.mem_takeWhile_imp, hne, fun b hb => ?_⟩
      · rw [List.append_assoc, List.takeWhile_append_dropWhile, List.append_assoc, ← hmark,
          List.takeWhile_append_dropWhile]
      · have hstop := List.head?_dropWhile_not isDigit (sign (t.dropWhile isSpace)).2
        rw [hb] at hstop
        exact hstop
  · rintro ⟨⟨spaces, mark, rfl, hspaces, hsigns⟩, hdigits, hne, hstop⟩
    obtain ⟨b, ds, hds⟩ := List.exists_cons_of_ne_nil hne
    have hhead : ∃ b ∈ (n.digits ++ n.rest).head?, isDigit b = true :=
      ⟨b, by rw [hds]; rfl, hdigits b (hds ▸ List.mem_cons_self)⟩
    have hblank := (span_of_stop hspaces (not_isSpace_of_signs hsigns hhead)).2
    rw [List.append_assoc, List.append_assoc, hblank, sign_append hsigns hhead]
    obtain ⟨htake, hdrop⟩ := span_of_stop hdigits hstop
    dsimp only
    rw [htake, hdrop, if_neg hne]

theorem Leads.unique (h : n.Leads t) (h' : n'.Leads t) : n = n' := by
  rw [← scan?_eq_some_iff] at h h'
  exact Option.some.inj (h.symm.trans h')

end Numeral

namespace Text

open Numeral

variable {t rest rest' : Text} {z z' : Int} {count : Nat}

/-! ## Integers -/

/-- The text begins with an integer, behind white space: a sign or none, and all digits that there are. -/
def Begins (t : Text) (z : Int) (rest : Text) : Prop :=
  ∃ n : Numeral, n.Leads t ∧ n.value = z ∧ n.rest = rest

/-- The text is an integer, behind white space, and nothing else. -/
def IsInteger (t : Text) (z : Int) : Prop := t.Begins z []

theorem Begins.unique (h : t.Begins z rest) (h' : t.Begins z' rest') : z = z' ∧ rest = rest' := by
  obtain ⟨n, hleads, rfl, rfl⟩ := h
  obtain ⟨n', hleads', rfl, rfl⟩ := h'
  rw [hleads.unique hleads']
  exact ⟨rfl, rfl⟩

theorem isInteger_ofInt (z : Int) : (ofInt z).IsInteger z := by
  by_cases hneg : z < 0
  · refine ⟨⟨true, decimal z.natAbs, []⟩, ⟨⟨[], [byte '-'], ?_, by simp, .inr (.inr ⟨rfl, rfl⟩)⟩,
      digits_decimal _, decimal_ne_nil _, by simp⟩, ?_, rfl⟩
    · simp [ofInt, hneg]
    · simp only [value, magnitude, ofDigits_decimal, if_true]
      omega
  · refine ⟨⟨false, decimal z.natAbs, []⟩, ⟨⟨[], [], ?_, by simp, .inl ⟨rfl, rfl⟩⟩,
      digits_decimal _, decimal_ne_nil _, by simp⟩, ?_, rfl⟩
    · simp [ofInt, hneg]
    · simp only [value, magnitude, ofDigits_decimal, Bool.false_eq_true, if_false]
      omega

theorem leadingInt64?_eq_some_iff {k : Int64} :
    leadingInt64? t = some k ↔ ∃ rest, t.Begins k.toInt rest := by
  unfold leadingInt64? Begins
  simp only [← scan?_eq_some_iff]
  cases scan? t with
  | none => simp
  | some n =>
    simp only [Option.some.injEq, exists_and_left, exists_eq_left', exists_eq', and_true]
    split
    · rename_i hfit
      have hvalue : (Int64.ofInt n.value).toInt = n.value :=
        Int64.toInt_ofInt_of_le hfit.1 (Int.lt_add_one_of_le hfit.2)
      rw [Option.some.injEq, ← Int64.toInt_inj, hvalue]
    · rename_i hlong
      refine iff_of_false (by simp) fun hvalue => hlong ?_
      rw [hvalue]
      exact ⟨Int64.minValue_le_toInt k, Int64.toInt_le k⟩

/-! ## Counts -/

/-- The text begins with a number that 64 bits hold without a sign, up to the sign that it has: a minus
counts down from `2 ^ 64`. -/
def Counted (t : Text) (count : Nat) (rest : Text) : Prop :=
  ∃ n : Numeral, n.Leads t ∧ n.rest = rest ∧ n.magnitude < UInt64.size ∧
    count < UInt64.size ∧ (count : Int) ≡ n.value [ZMOD UInt64.size]

/-- The residue that a count is. -/
theorem toNat_emod_eq_iff {z : Int} {size : Nat} (hsize : 0 < size) :
    (z % size).toNat = count ↔ count < size ∧ (count : Int) ≡ z [ZMOD size] := by
  have hpos : (0 : Int) < size := Int.natCast_pos.2 hsize
  have hnonneg := Int.emod_nonneg z (Int.ne_of_gt hpos)
  have hlt := Int.emod_lt_of_pos z hpos
  constructor
  · rintro rfl
    rw [Int.toNat_of_nonneg hnonneg]
    exact ⟨by omega, Int.mod_modEq z size⟩
  · rintro ⟨hcount, hmod⟩
    rw [← hmod, Int.emod_eq_of_lt (Int.natCast_nonneg count) (Int.ofNat_lt.2 hcount), Int.toNat_natCast]

theorem leadingCount?_eq_some_iff : leadingCount? t = some (count, rest) ↔ Counted t count rest := by
  unfold leadingCount? Counted
  simp only [← scan?_eq_some_iff]
  cases scan? t with
  | none => simp
  | some n =>
    dsimp only
    split
    · rename_i hfit
      rw [Option.some.injEq, Prod.mk.injEq, toNat_emod_eq_iff (by decide)]
      constructor
      · rintro ⟨hcount, hrest⟩
        exact ⟨n, rfl, hrest, hfit, hcount⟩
      · rintro ⟨_, ⟨⟩, hrest, _, hcount⟩
        exact ⟨hcount, hrest⟩
    · rename_i hlong
      simp [hlong]

end Text
end Sessions
