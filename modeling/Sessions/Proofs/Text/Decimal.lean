import Mathlib.Data.List.Induction
import Mathlib.Tactic.Ring
import Sessions.Text.Numeral

/-!
# Sessions.Proofs.Text.Decimal

Decimal digits, written and read. A number is read back from its digits, with zeros in front of them or
not; of the texts that are read as a number, the one that was written is the one without superfluous
zeros.

* `Numeral.ofDigits_append`: the value of digits behind digits. `Numeral.ofDigits_lt`: it has as many
  digits as there are.
* `Text.ofDigits_decimal`, `Text.ofDigits_padded`: what is written is read back.
* `Text.Plain` and `Text.eq_decimal_of_plain`: digits without superfluous zeros are the written ones.
* `Text.le_append_of_lt`: where two texts have as many digits, their order is that of the numbers.
-/

namespace Sessions

namespace Text

theorem isDigit_iff {b : UInt8} : isDigit b = true ↔ 48 ≤ b.toNat ∧ b.toNat ≤ 57 := by
  simp only [isDigit, Bool.and_eq_true, decide_eq_true_eq, UInt8.le_iff_toNat_le]
  exact Iff.rfl

theorem toNat_digit {d : Nat} (h : d < 10) : (digit d).toNat = 48 + d := by
  have hzero : (byte '0').toNat = 48 := rfl
  rw [digit, UInt8.toNat_add, hzero, Nat.toUInt8_eq, UInt8.toNat_ofNat']
  omega

theorem isDigit_digit {d : Nat} (h : d < 10) : isDigit (digit d) = true := by
  rw [isDigit_iff, toNat_digit h]
  omega

theorem digitValue_digit {d : Nat} (h : d < 10) : digitValue (digit d) = d := by
  have hzero : (byte '0').toNat = 48 := rfl
  rw [digitValue, toNat_digit h, hzero]
  omega

theorem digitValue_lt {b : UInt8} (h : isDigit b = true) : digitValue b < 10 := by
  have hzero : (byte '0').toNat = 48 := rfl
  rw [isDigit_iff] at h
  rw [digitValue, hzero]
  omega

theorem digit_digitValue {b : UInt8} (h : isDigit b = true) : digit (digitValue b) = b := by
  apply UInt8.toNat_inj.1
  rw [toNat_digit (digitValue_lt h)]
  have hzero : (byte '0').toNat = 48 := rfl
  rw [isDigit_iff] at h
  rw [digitValue, hzero]
  omega

/-- Nothing but digits. -/
def Digits (t : Text) : Prop := ∀ b ∈ t, isDigit b = true

theorem digits_append {s t : Text} : Digits (s ++ t) ↔ Digits s ∧ Digits t :=
  List.forall_mem_append

theorem digits_singleton {b : UInt8} : Digits [b] ↔ isDigit b = true := List.forall_mem_singleton

end Text

/-! ## The value of digits -/

namespace Numeral

variable {s t : Text}

theorem ofDigits_concat (t : Text) (b : UInt8) :
    ofDigits (t ++ [b]) = 10 * ofDigits t + Text.digitValue b := by
  simp [ofDigits]

theorem ofDigits_singleton (b : UInt8) : ofDigits [b] = Text.digitValue b := by
  simp [ofDigits]

theorem ofDigits_append (s t : Text) :
    ofDigits (s ++ t) = ofDigits s * 10 ^ t.length + ofDigits t := by
  induction t using List.reverseRecOn with
  | nil => simp [ofDigits]
  | append_singleton t b ih =>
    rw [← List.append_assoc, ofDigits_concat, ofDigits_concat, ih, List.length_append,
      List.length_singleton, pow_succ]
    ring

/-- A number of so many digits. -/
theorem ofDigits_lt (h : Text.Digits t) : ofDigits t < 10 ^ t.length := by
  induction t using List.reverseRecOn with
  | nil => exact Nat.one_pos
  | append_singleton t b ih =>
    obtain ⟨ht, hb⟩ := Text.digits_append.1 h
    have hlt := ih ht
    have hvalue := Text.digitValue_lt (Text.digits_singleton.1 hb)
    rw [ofDigits_concat, List.length_append, List.length_singleton, pow_succ]
    omega

/-- Digits that have the same length and the same value are the same. -/
theorem eq_of_ofDigits_eq (hs : Text.Digits s) (ht : Text.Digits t) (hlen : s.length = t.length)
    (h : ofDigits s = ofDigits t) : s = t := by
  induction t using List.reverseRecOn generalizing s with
  | nil => exact List.eq_nil_of_length_eq_zero hlen
  | append_singleton t b ih =>
    obtain ⟨s, a, rfl⟩ : ∃ s' a, s = s' ++ [a] := by
      rcases List.eq_nil_or_concat s with rfl | ⟨s', a, hconcat⟩
      · simp at hlen
      · exact ⟨s', a, hconcat.trans List.concat_eq_append⟩
    obtain ⟨hs, ha⟩ := Text.digits_append.1 hs
    obtain ⟨ht, hb⟩ := Text.digits_append.1 ht
    rw [Text.digits_singleton] at ha hb
    rw [ofDigits_concat, ofDigits_concat] at h
    have hva := Text.digitValue_lt ha
    have hvb := Text.digitValue_lt hb
    have hinit : s = t := ih hs ht (by simpa using hlen) (by omega)
    have hlast : Text.digitValue a = Text.digitValue b := by omega
    rw [hinit, ← Text.digit_digitValue ha, hlast, Text.digit_digitValue hb]

end Numeral

/-! ## Numbers as they are written -/

namespace Text

open Numeral

variable {t : Text}

theorem decimal_of_lt {n : Nat} (h : n < 10) : decimal n = [digit n] := by
  rw [decimal, if_pos h]

theorem decimal_of_le {n : Nat} (h : 10 ≤ n) :
    decimal n = decimal (n / 10) ++ [digit (n % 10)] := by
  rw [decimal, if_neg (Nat.not_lt.2 h)]

theorem digits_decimal (n : Nat) : Digits (decimal n) := by
  fun_induction decimal n with
  | case1 n h => exact digits_singleton.2 (isDigit_digit h)
  | case2 n h ih =>
    exact digits_append.2 ⟨ih, digits_singleton.2 (isDigit_digit (Nat.mod_lt n (by decide)))⟩

theorem decimal_ne_nil (n : Nat) : decimal n ≠ [] := by
  fun_cases decimal n <;> simp

theorem ofDigits_decimal (n : Nat) : ofDigits (decimal n) = n := by
  fun_induction decimal n with
  | case1 n h => rw [ofDigits_singleton, digitValue_digit h]
  | case2 n h ih =>
    rw [ofDigits_concat, ih, digitValue_digit (Nat.mod_lt n (by decide))]
    omega

/-- A number that is no longer than the width. -/
theorem length_decimal_le {width n : Nat} (hwidth : 0 < width) (h : n < 10 ^ width) :
    (decimal n).length ≤ width := by
  induction width generalizing n with
  | zero => exact absurd hwidth (Nat.lt_irrefl 0)
  | succ w ih =>
    by_cases hten : n < 10
    · rw [decimal_of_lt hten]
      exact Nat.succ_le_succ (Nat.zero_le w)
    · have hw : 0 < w := by
        refine Nat.pos_of_ne_zero fun hzero => ?_
        rw [hzero] at h
        omega
      have hdiv : n / 10 < 10 ^ w := by
        rw [pow_succ] at h
        omega
      rw [decimal_of_le (Nat.not_lt.1 hten), List.length_append, List.length_singleton]
      exact Nat.succ_le_succ (ih hw hdiv)

theorem ofDigits_replicate (k : Nat) (t : Text) :
    ofDigits (List.replicate k (byte '0') ++ t) = ofDigits t := by
  have hzero : ofDigits (List.replicate k (byte '0')) = 0 := by
    induction k with
    | zero => rfl
    | succ k ih =>
      rw [List.replicate_succ', ofDigits_concat, ih]
      rfl
  rw [ofDigits_append, hzero, Nat.zero_mul, Nat.zero_add]

theorem digits_padded (width n : Nat) : Digits (padded width n) := by
  refine digits_append.2 ⟨fun b hb => ?_, digits_decimal n⟩
  rw [List.eq_of_mem_replicate hb]
  rfl

theorem ofDigits_padded (width n : Nat) : ofDigits (padded width n) = n := by
  rw [padded, ofDigits_replicate, ofDigits_decimal]

theorem le_length_padded (width n : Nat) : width ≤ (padded width n).length := by
  rw [padded, List.length_append, List.length_replicate]
  omega

theorem length_padded {width n : Nat} (hwidth : 0 < width) (h : n < 10 ^ width) :
    (padded width n).length = width := by
  have hle := length_decimal_le hwidth h
  rw [padded, List.length_append, List.length_replicate]
  omega

/-! ## Superfluous zeros -/

/-- A number without superfluous zeros: there are digits, and a zero comes first only where it is the
only one. -/
structure Plain (t : Text) : Prop where
  digits : Digits t
  ne_nil : t ≠ []
  head : t.head? = some (byte '0') → t.length = 1

theorem head?_decimal {n : Nat} (h : (decimal n).head? = some (byte '0')) : n = 0 := by
  fun_induction decimal n with
  | case1 n hn =>
    have hdigit : digit n = byte '0' := by simpa using h
    rw [← digitValue_digit hn, hdigit]
    rfl
  | case2 n hn ih =>
    have hhead : (decimal (n / 10)).head? = some (byte '0') := by
      rwa [List.head?_append, List.head?_eq_some_head (decimal_ne_nil _), Option.some_or,
        ← List.head?_eq_some_head] at h
    have hzero := ih hhead
    omega

theorem plain_decimal (n : Nat) : Plain (decimal n) where
  digits := digits_decimal n
  ne_nil := decimal_ne_nil n
  head h := by
    rw [head?_decimal h, decimal_of_lt (by decide)]
    rfl

/-- What is read as a number and has no superfluous zeros is how the number is written. -/
theorem eq_decimal_of_plain (h : Plain t) : t = decimal (ofDigits t) := by
  induction t using List.reverseRecOn with
  | nil => exact absurd rfl h.ne_nil
  | append_singleton t b ih =>
    obtain ⟨ht, hb⟩ := digits_append.1 h.digits
    have hb := digits_singleton.1 hb
    have hvalue := digitValue_lt hb
    by_cases hnil : t = []
    · rw [hnil, List.nil_append, ofDigits_singleton, decimal_of_lt hvalue, digit_digitValue hb]
    · have hhead : t.head? ≠ some (byte '0') := by
        intro hzero
        have hlen := h.head (by rw [List.head?_append, hzero, Option.some_or])
        rw [List.length_append, List.length_singleton] at hlen
        exact hnil (List.eq_nil_of_length_eq_zero (by omega))
      have htext := ih ⟨ht, hnil, fun hzero => absurd hzero hhead⟩
      have hpos : 0 < ofDigits t := by
        refine Nat.pos_of_ne_zero fun hzero => hhead ?_
        rw [htext, hzero, decimal_of_lt (by decide)]
        rfl
      have hdiv : (10 * ofDigits t + digitValue b) / 10 = ofDigits t := by omega
      have hmod : (10 * ofDigits t + digitValue b) % 10 = digitValue b := by omega
      rw [ofDigits_concat, decimal_of_le (by omega), hdiv, hmod, ← htext, digit_digitValue hb]

/-! ## Order -/

theorem le_refl (t : Text) : le t t = true := by
  induction t with
  | nil => rfl
  | cons b t ih => simp [le, ih]

theorem le_antisymm {s t : Text} (hst : le s t = true) (hts : le t s = true) : s = t := by
  induction s generalizing t with
  | nil =>
    cases t with
    | nil => rfl
    | cons b t => cases hts
  | cons a s ih =>
    cases t with
    | nil => cases hst
    | cons b t =>
      simp only [le, Bool.or_eq_true, decide_eq_true_eq, Bool.and_eq_true, beq_iff_eq] at hst hts
      rcases hst with hlt | ⟨rfl, hst⟩
      · rcases hts with hgt | ⟨rfl, _⟩
        · exact absurd (UInt8.lt_trans hlt hgt) (UInt8.lt_irrefl a)
        · exact absurd hlt (UInt8.lt_irrefl b)
      · rcases hts with hgt | ⟨_, hts⟩
        · exact absurd hgt (UInt8.lt_irrefl a)
        · rw [ih hst hts]

theorem le_append_left (a s t : Text) : le (a ++ s) (a ++ t) = le s t := by
  induction a with
  | nil => rfl
  | cons b a ih =>
    rw [List.cons_append, List.cons_append, le, ih]
    simp

/-- Of digits of the same number, those of the smaller value come first, whatever follows them. -/
theorem le_append_of_lt {a b : Text} (hlen : a.length = b.length) (ha : Digits a) (hb : Digits b)
    (h : ofDigits a < ofDigits b) (s t : Text) : le (a ++ s) (b ++ t) = true := by
  induction a generalizing b with
  | nil =>
    rw [List.length_nil, eq_comm, List.length_eq_zero_iff] at hlen
    rw [hlen] at h
    exact absurd h (Nat.lt_irrefl _)
  | cons x a ih =>
    cases b with
    | nil => cases hlen
    | cons y b =>
      have htails : a.length = b.length := Nat.succ_inj.1 hlen
      obtain ⟨hx, ha⟩ := List.forall_mem_cons.1 ha
      obtain ⟨hy, hb⟩ := List.forall_mem_cons.1 hb
      rw [← List.singleton_append, ← List.singleton_append (l := b), ofDigits_append,
        ofDigits_append, ofDigits_singleton, ofDigits_singleton, htails] at h
      rw [List.cons_append, List.cons_append, le]
      simp only [Bool.or_eq_true, decide_eq_true_eq, Bool.and_eq_true, beq_iff_eq]
      rcases Nat.lt_trichotomy (digitValue x) (digitValue y) with hlt | heq | hgt
      · refine .inl ?_
        rw [UInt8.lt_iff_toNat_lt]
        unfold digitValue at hlt
        omega
      · refine .inr ⟨?_, ih htails ha hb ?_⟩
        · rw [← digit_digitValue hx, heq, digit_digitValue hy]
        · rw [heq] at h
          omega
      · exfalso
        have hltb := ofDigits_lt hb
        have hmul : (digitValue y + 1) * 10 ^ b.length ≤ digitValue x * 10 ^ b.length :=
          Nat.mul_le_mul_right _ hgt
        rw [Nat.succ_mul] at hmul
        omega

end Text
end Sessions
