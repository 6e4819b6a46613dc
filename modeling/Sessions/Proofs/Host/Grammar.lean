import Sessions.Host
import Sessions.Proofs.Text.Decimal
import Sessions.Proofs.Text.Pieces

/-!
# Sessions.Proofs.Host.Grammar

Which texts are taken for host addresses. `Host.Address` is the grammar, told by the parts that an address
is put together from; the checks of `Sessions.Host` take a text apart again and accept the same texts.

* `Host.Quad` and `Host.Hextets` are the two forms of an address.
* `Host.isQuad_iff` and `Host.isGroups_iff`: the checks decide them.
* `Host.accepts_addresses`: a host is accepted if and only if it is an address, or an address with a zero
  byte behind it and anything behind that. Addresses are short enough, all of them.
-/

namespace Sessions
namespace Host

variable {t l r q g : Text} {gs ps : List Text} {m n : Nat}

/-! ## The grammar -/

/-- A number from 0 to 255, without superfluous zeros. -/
def Octet (t : Text) : Prop := ∃ n, n ≤ 255 ∧ t = Text.decimal n

/-- Four numbers with points between them. -/
def Quad (t : Text) : Prop :=
  ∃ os : List Text, os.length = 4 ∧ (∀ o ∈ os, Octet o) ∧ t = [Text.byte '.'].intercalate os

/-- One to four hexadecimal digits. -/
def Group (t : Text) : Prop :=
  (1 ≤ t.length ∧ t.length ≤ 4) ∧ ∀ b ∈ t, Text.isHexDigit b = true

/-- Texts with colons between them. -/
def joined (ps : List Text) : Text := [Text.byte ':'].intercalate ps

/-- So many groups with colons between them. -/
def Groups (n : Nat) (t : Text) : Prop :=
  ∃ gs : List Text, gs.length = n ∧ (∀ g ∈ gs, Group g) ∧ t = joined gs

/-- So many groups, the last two of which may be written as a dotted quad. -/
def GroupsAndQuad (n : Nat) (t : Text) : Prop :=
  Groups n t ∨ ∃ (gs : List Text) (q : Text), gs.length + 2 = n ∧ (∀ g ∈ gs, Group g) ∧ Quad q ∧
    t = joined (gs ++ [q])

/-- Eight groups, or `::` in the place of one or more of them. -/
def Hextets (t : Text) : Prop :=
  GroupsAndQuad 8 t ∨ ∃ (m n : Nat) (l r : Text), m + n ≤ 7 ∧ Groups m l ∧ GroupsAndQuad n r ∧
    t = l ++ "::" ++ r

def Address (t : Text) : Prop := Quad t ∨ Hextets t

/-! ## Numbers and quads -/

theorem octet_iff : Octet t ↔ Text.Plain t ∧ Numeral.ofDigits t ≤ 255 := by
  constructor
  · rintro ⟨n, hn, rfl⟩
    exact ⟨Text.plain_decimal n, by rwa [Text.ofDigits_decimal]⟩
  · rintro ⟨hplain, hle⟩
    exact ⟨_, hle, Text.eq_decimal_of_plain hplain⟩

theorem Octet.digits (h : Octet t) : Text.Digits t := (octet_iff.1 h).1.digits

theorem Octet.length_le (h : Octet t) : t.length ≤ 3 := by
  obtain ⟨n, hn, rfl⟩ := h
  exact Text.length_decimal_le (by decide) (by omega)

theorem octet_of_isOctet (h : isOctet t = true) : Octet t := by
  rw [octet_iff]
  match t, h with
  | [a], h =>
    have hvalue := Text.digitValue_lt h
    refine ⟨⟨Text.digits_singleton.2 h, List.cons_ne_nil _ _, fun _ => rfl⟩, ?_⟩
    rw [Numeral.ofDigits_singleton]
    omega
  | [a, b], h =>
    simp only [isOctet, Bool.and_eq_true, bne_iff_ne, ne_eq] at h
    obtain ⟨⟨ha, hb⟩, hzero⟩ := h
    have hva := Text.digitValue_lt ha
    have hvb := Text.digitValue_lt hb
    refine ⟨⟨by simp [Text.Digits, ha, hb], List.cons_ne_nil _ _, fun h => ?_⟩, ?_⟩
    · exact absurd (Option.some.inj h) hzero
    · simp only [Numeral.ofDigits, List.foldl_cons, List.foldl_nil]
      omega
  | [a, b, c], h =>
    simp only [isOctet, Bool.and_eq_true, bne_iff_ne, ne_eq, decide_eq_true_eq] at h
    obtain ⟨⟨⟨⟨ha, hb⟩, hc⟩, hzero⟩, hle⟩ := h
    refine ⟨⟨by simp [Text.Digits, ha, hb, hc], List.cons_ne_nil _ _, fun h => ?_⟩, ?_⟩
    · exact absurd (Option.some.inj h) hzero
    · simp only [Numeral.ofDigits, List.foldl_cons, List.foldl_nil]
      omega

theorem isOctet_of_octet (h : Octet t) : isOctet t = true := by
  have hlen := h.length_le
  obtain ⟨⟨hdigits, hne, hhead⟩, hle⟩ := octet_iff.1 h
  match t with
  | [] => exact absurd rfl hne
  | [a] => exact Text.digits_singleton.1 hdigits
  | [a, b] =>
    simp only [Text.Digits, List.mem_cons, List.not_mem_nil, or_false, forall_eq_or_imp,
      forall_eq] at hdigits
    simp only [isOctet, hdigits, Bool.and_self, Bool.true_and, bne_iff_ne, ne_eq]
    rintro rfl
    exact absurd (hhead rfl) (by simp)
  | [a, b, c] =>
    simp only [Text.Digits, List.mem_cons, List.not_mem_nil, or_false, forall_eq_or_imp,
      forall_eq] at hdigits
    simp only [Numeral.ofDigits, List.foldl_cons, List.foldl_nil] at hle
    simp only [isOctet, hdigits, Bool.and_self, Bool.true_and, Bool.and_eq_true, bne_iff_ne,
      ne_eq, decide_eq_true_eq]
    refine ⟨?_, by omega⟩
    rintro rfl
    exact absurd (hhead rfl) (by simp)

theorem isOctet_iff : isOctet t = true ↔ Octet t := ⟨octet_of_isOctet, isOctet_of_octet⟩

theorem Octet.not_mem_point (h : Octet t) : Text.byte '.' ∉ t := fun hmem =>
  absurd (h.digits _ hmem) (by decide)

theorem isQuad_iff : isQuad t = true ↔ Quad t := by
  simp only [isQuad, Bool.and_eq_true, beq_iff_eq, List.all_eq_true, isOctet_iff]
  constructor
  · rintro ⟨hlen, hall⟩
    exact ⟨_, hlen, hall, (Text.pieces_eq_iff.1 rfl).2.2⟩
  · rintro ⟨os, hlen, hall, ht⟩
    have hne : os ≠ [] := by
      rintro rfl
      cases hlen
    have hpieces := Text.pieces_eq_iff.2 ⟨hne, fun o ho => (hall o ho).not_mem_point, ht⟩
    rw [hpieces]
    exact ⟨hlen, hall⟩

/-! ## Groups -/

theorem isGroup_iff : isGroup t = true ↔ Group t := by
  simp [isGroup, Group, and_assoc]

/-- What may stand between colons. -/
structure Part (p : Text) : Prop where
  ne_nil : p ≠ []
  not_mem_colon : Text.byte ':' ∉ p

theorem Group.part (h : Group g) : Part g where
  ne_nil := List.ne_nil_of_length_pos h.1.1
  not_mem_colon hmem := absurd (h.2 _ hmem) (by decide)

theorem Quad.part (h : Quad q) : Part q where
  ne_nil := by
    rintro rfl
    rw [← isQuad_iff] at h
    cases h
  not_mem_colon := by
    obtain ⟨os, _, hall, rfl⟩ := h
    intro hmem
    rcases Text.mem_intercalate hmem with hpoint | ⟨o, ho, hmem⟩
    · exact absurd hpoint (by decide)
    · exact absurd ((hall o ho).digits _ hmem) (by decide)

/-- There are points in a quad, and none in a group. -/
theorem Quad.not_group (h : Quad q) : ¬Group q := by
  obtain ⟨os, hlen, _, rfl⟩ := h
  match os, hlen with
  | [a, b, c, d], _ =>
    intro hgroup
    have hpoint : Text.byte '.' ∈ [Text.byte '.'].intercalate [a, b, c, d] := by
      simp [List.intercalate_cons_cons]
    exact absurd (hgroup.2 _ hpoint) (by decide)

theorem parts_of_groups (h : ∀ g ∈ gs, Group g) : ∀ g ∈ gs, Part g := fun g hg => (h g hg).part

theorem parts_of_quad (h : ∀ g ∈ gs, Group g) (hq : Quad q) : ∀ p ∈ gs ++ [q], Part p := by
  intro p hp
  rcases List.mem_append.1 hp with hp | hp
  · exact (h p hp).part
  · rw [List.mem_singleton.1 hp]
    exact hq.part

theorem pieces_joined (h : ∀ p ∈ ps, Part p) (hne : ps ≠ []) :
    Text.pieces (Text.byte ':') (joined ps) = ps :=
  Text.pieces_eq_iff.2 ⟨hne, fun p hp => (h p hp).not_mem_colon, rfl⟩

theorem joined_eq_nil_iff (h : ∀ p ∈ ps, Part p) : joined ps = [] ↔ ps = [] := by
  constructor
  · intro hnil
    by_contra hne
    have hpieces := pieces_joined h hne
    rw [hnil] at hpieces
    exact (h [] (hpieces ▸ List.mem_singleton_self [])).ne_nil rfl
  · rintro rfl
    rfl

theorem groups?_eq_some_iff : groups? t = some n ↔ Groups n t := by
  unfold groups?
  split
  · rename_i hnil
    rw [hnil, Option.some.injEq]
    constructor
    · rintro rfl
      exact ⟨[], rfl, by simp, rfl⟩
    · rintro ⟨gs, rfl, hall, hjoined⟩
      rw [(joined_eq_nil_iff (parts_of_groups hall)).1 hjoined.symm]
      rfl
  · rename_i hne
    simp only [List.all_eq_true, isGroup_iff, Option.ite_none_right_eq_some, Option.some.injEq]
    constructor
    · rintro ⟨hall, hlen⟩
      exact ⟨_, hlen, hall, (Text.pieces_eq_iff.1 rfl).2.2⟩
    · rintro ⟨gs, hlen, hall, rfl⟩
      have hgs : gs ≠ [] := fun hnil => hne (by rw [hnil]; rfl)
      rw [pieces_joined (parts_of_groups hall) hgs]
      exact ⟨hall, hlen⟩

/-- No text is groups that has a quad for its last piece. -/
theorem not_groups_of_quad (hps : Text.pieces (Text.byte ':') t = ps ++ [q]) (hq : Quad q) :
    ¬Groups n t := by
  rintro ⟨gs, _, hall, rfl⟩
  by_cases hgs : gs = []
  · have hnil : Text.pieces (Text.byte ':') (joined gs) = [] ++ [[]] := by
      rw [hgs]
      rfl
    exact hq.part.ne_nil (List.append_singleton_inj.1 (hps.symm.trans hnil)).2
  · rw [pieces_joined (parts_of_groups hall) hgs] at hps
    exact hq.not_group (hall q (hps ▸ List.mem_concat_self))

/-- The last piece is where a quad may be. -/
theorem groupsAndQuad_iff (hps : Text.pieces (Text.byte ':') t = ps ++ [q]) :
    GroupsAndQuad n t ↔ Groups n t ∨ ps.length + 2 = n ∧ (∀ g ∈ ps, Group g) ∧ Quad q := by
  refine or_congr_right ⟨?_, ?_⟩
  · rintro ⟨gs, q', hlen, hall, hq', rfl⟩
    rw [pieces_joined (parts_of_quad hall hq') (by simp)] at hps
    obtain ⟨rfl, rfl⟩ := List.append_singleton_inj.1 hps
    exact ⟨hlen, hall, hq'⟩
  · rintro ⟨hlen, hall, hq⟩
    exact ⟨ps, q, hlen, hall, hq, (Text.pieces_eq_iff.1 hps).2.2⟩

theorem groupsAndQuad?_eq_some_iff : groupsAndQuad? t = some n ↔ GroupsAndQuad n t := by
  obtain ⟨ps, q, hps⟩ : ∃ ps q, Text.pieces (Text.byte ':') t = ps ++ [q] := by
    rcases List.eq_nil_or_concat (Text.pieces (Text.byte ':') t) with hnil | ⟨ps, q, h⟩
    · exact absurd hnil (Text.pieces_ne_nil _ t)
    · exact ⟨ps, q, h.trans List.concat_eq_append⟩
  rw [groupsAndQuad_iff hps]
  simp only [groupsAndQuad?, hps, List.getLast?_concat, List.dropLast_concat]
  by_cases hq : Quad q
  · rw [if_pos (isQuad_iff.2 hq)]
    simp [hq, not_groups_of_quad hps hq, isGroup_iff, and_comm]
  · rw [if_neg fun h => hq (isQuad_iff.1 h), groups?_eq_some_iff]
    simp [hq]

/-! ## Two colons -/

theorem cutDouble_cons {b : UInt8} (h : b ≠ Text.byte ':') (t : Text) :
    cutDouble (b :: t) = (cutDouble t).map fun (l, r) => (b :: l, r) := by
  cases t with
  | nil => rfl
  | cons a t => rw [cutDouble, if_neg fun hboth => h hboth.1]

theorem cutDouble_colon {b : UInt8} (h : b ≠ Text.byte ':') (t : Text) :
    cutDouble (Text.byte ':' :: b :: t) =
      (cutDouble (b :: t)).map fun (l, r) => (Text.byte ':' :: l, r) := by
  rw [cutDouble, if_neg fun hboth => h hboth.2]

theorem cutDouble_append (h : Text.byte ':' ∉ l) (t : Text) :
    cutDouble (l ++ t) = (cutDouble t).map fun (l', r) => (l ++ l', r) := by
  induction l with
  | nil => simp
  | cons b l ih =>
    obtain ⟨hb, hl⟩ := not_or.1 (List.mem_cons.not.1 h)
    rw [List.cons_append, cutDouble_cons (Ne.symm hb), ih hl, Option.map_map]
    rfl

theorem exists_joined_eq_cons {p : Text} (h : ∀ q ∈ p :: ps, Part q) :
    ∃ b t, b ≠ Text.byte ':' ∧ joined (p :: ps) = b :: t := by
  have hp := h p List.mem_cons_self
  cases p with
  | nil => exact absurd rfl hp.ne_nil
  | cons b p =>
    have hb : b ≠ Text.byte ':' := fun hb => hp.not_mem_colon (hb ▸ List.mem_cons_self)
    cases ps with
    | nil => exact ⟨b, p, hb, List.intercalate_singleton⟩
    | cons q ps => exact ⟨b, _, hb, List.intercalate_cons_cons⟩

/-- No two colons meet among the parts, and none ends them. -/
theorem cutDouble_joined (h : ∀ p ∈ ps, Part p) (t : Text) :
    cutDouble (joined ps ++ t) = (cutDouble t).map fun (l, r) => (joined ps ++ l, r) := by
  induction ps with
  | nil => simp [joined]
  | cons p ps ih =>
    have hp := (h p List.mem_cons_self).not_mem_colon
    have hps : ∀ q ∈ ps, Part q := fun q hq => h q (List.mem_cons_of_mem p hq)
    cases ps with
    | nil =>
      rw [joined, List.intercalate_singleton]
      exact cutDouble_append hp t
    | cons q ps =>
      obtain ⟨b, u, hb, hu⟩ := exists_joined_eq_cons hps
      have hjoined : joined (p :: q :: ps) = p ++ Text.byte ':' :: joined (q :: ps) := by
        rw [joined, List.intercalate_cons_cons, List.append_assoc]
        rfl
      have hcolon : cutDouble (Text.byte ':' :: (joined (q :: ps) ++ t)) =
          (cutDouble (joined (q :: ps) ++ t)).map fun (l, r) => (Text.byte ':' :: l, r) := by
        rw [hu]
        exact cutDouble_colon hb _
      rw [hjoined, List.append_assoc, List.cons_append, cutDouble_append hp, hcolon, ih hps,
        Option.map_map, Option.map_map]
      simp [Function.comp_def]

theorem cutDouble_double (t : Text) : cutDouble ("::" ++ t) = some ([], t) := rfl

/-- The cut is made where the two colons are. -/
theorem eq_of_cutDouble (h : cutDouble t = some (l, r)) : t = l ++ "::" ++ r := by
  fun_induction cutDouble t generalizing l with
  | case1 => cases h
  | case2 => cases h
  | case3 a b t hboth =>
    obtain ⟨rfl, rfl⟩ := hboth
    cases h
    rfl
  | case4 a b t _ ih =>
    obtain ⟨⟨l', r'⟩, hcut, heq⟩ := Option.map_eq_some_iff.1 h
    cases heq
    rw [ih hcut]
    rfl

theorem parts_of_groupsAndQuad (h : GroupsAndQuad n t) :
    ∃ ps : List Text, (∀ p ∈ ps, Part p) ∧ t = joined ps := by
  rcases h with ⟨gs, _, hall, ht⟩ | ⟨gs, q, _, hall, hq, ht⟩
  · exact ⟨gs, parts_of_groups hall, ht⟩
  · exact ⟨gs ++ [q], parts_of_quad hall hq, ht⟩

theorem isGroups_iff : isGroups t = true ↔ Hextets t := by
  constructor
  · intro h
    unfold isGroups at h
    split at h
    · exact .inl (groupsAndQuad?_eq_some_iff.1 (by simpa using h))
    · rename_i l r hcut
      split at h
      · rename_i m n hm hn
        exact .inr ⟨m, n, l, r, by simpa using h, groups?_eq_some_iff.1 hm,
          groupsAndQuad?_eq_some_iff.1 hn, eq_of_cutDouble hcut⟩
      · cases h
  · rintro (h | ⟨m, n, l, r, hmn, hl, hr, rfl⟩)
    · obtain ⟨ps, hps, ht⟩ := parts_of_groupsAndQuad h
      have hcut : cutDouble t = none := by
        have happend := cutDouble_joined hps []
        rwa [List.append_nil, ← ht] at happend
      rw [isGroups, hcut, groupsAndQuad?_eq_some_iff.2 h]
      rfl
    · have hcut : cutDouble (l ++ "::" ++ r) = some (l, r) := by
        obtain ⟨gs, _, hall, rfl⟩ := hl
        rw [List.append_assoc, cutDouble_joined (parts_of_groups hall), cutDouble_double]
        simp
      rw [isGroups, hcut]
      simpa only [groups?_eq_some_iff.2 hl, groupsAndQuad?_eq_some_iff.2 hr, decide_eq_true_eq]
        using hmn

/-! ## Bytes and lengths -/

theorem Quad.zero_not_mem (h : Quad t) : 0 ∉ t := by
  obtain ⟨os, _, hall, rfl⟩ := h
  intro hmem
  rcases Text.mem_intercalate hmem with hpoint | ⟨o, ho, hmem⟩
  · exact absurd hpoint (by decide)
  · exact absurd ((hall o ho).digits _ hmem) (by decide)

theorem Group.zero_not_mem (h : Group t) : 0 ∉ t := fun hmem => absurd (h.2 _ hmem) (by decide)

theorem zero_not_mem_joined (h : ∀ p ∈ ps, 0 ∉ p) : 0 ∉ joined ps := by
  intro hmem
  rcases Text.mem_intercalate hmem with hcolon | ⟨p, hp, hmem⟩
  · exact absurd hcolon (by decide)
  · exact h p hp hmem

theorem Groups.zero_not_mem (h : Groups n t) : 0 ∉ t := by
  obtain ⟨gs, _, hall, rfl⟩ := h
  exact zero_not_mem_joined fun g hg => (hall g hg).zero_not_mem

theorem GroupsAndQuad.zero_not_mem (h : GroupsAndQuad n t) : 0 ∉ t := by
  rcases h with h | ⟨gs, q, _, hall, hq, rfl⟩
  · exact h.zero_not_mem
  · refine zero_not_mem_joined fun p hp => ?_
    rcases List.mem_append.1 hp with hp | hp
    · exact (hall p hp).zero_not_mem
    · rw [List.mem_singleton.1 hp]
      exact hq.zero_not_mem

theorem Address.zero_not_mem (h : Address t) : 0 ∉ t := by
  rcases h with h | h | ⟨m, n, l, r, _, hl, hr, rfl⟩
  · exact h.zero_not_mem
  · exact h.zero_not_mem
  · have hcolons : (0 : UInt8) ∉ ("::" : Text) := by decide
    simp only [List.mem_append, not_or]
    exact ⟨⟨hl.zero_not_mem, hcolons⟩, hr.zero_not_mem⟩

theorem Address.ne_nil (h : Address t) : t ≠ [] := by
  rintro rfl
  rcases h with h | h
  · exact absurd (isQuad_iff.2 h) (by decide)
  · exact absurd (isGroups_iff.2 h) (by decide)

theorem sum_lengths_le {k : Nat} (h : ∀ p ∈ ps, p.length ≤ k) :
    (ps.map fun p => p.length + 1).sum ≤ ps.length * (k + 1) := by
  induction ps with
  | nil => exact Nat.zero_le _
  | cons p ps ih =>
    have hp := h p List.mem_cons_self
    have hps := ih fun q hq => h q (List.mem_cons_of_mem p hq)
    rw [List.map_cons, List.sum_cons, List.length_cons, Nat.succ_mul]
    omega

/-- The length of texts that are put together, where none is longer than `k`. -/
theorem length_intercalate_le (sep : UInt8) {k : Nat} (hne : ps ≠ [])
    (h : ∀ p ∈ ps, p.length ≤ k) : ([sep].intercalate ps).length + 1 ≤ ps.length * (k + 1) := by
  rw [Text.length_intercalate sep hne]
  exact sum_lengths_le h

theorem Quad.length_le (h : Quad t) : t.length ≤ 15 := by
  obtain ⟨os, hlen, hall, rfl⟩ := h
  have hne : os ≠ [] := List.ne_nil_of_length_pos (by omega)
  have hle := length_intercalate_le (Text.byte '.') hne fun o ho => (hall o ho).length_le
  rw [hlen] at hle
  omega

theorem Groups.length_le (h : Groups n t) : t.length ≤ 5 * n := by
  obtain ⟨gs, rfl, hall, rfl⟩ := h
  by_cases hne : gs = []
  · rw [hne]
    exact Nat.zero_le _
  · have hle := length_intercalate_le (Text.byte ':') hne fun g hg => (hall g hg).1.2
    rw [joined]
    omega

theorem GroupsAndQuad.length_le (h : GroupsAndQuad n t) : t.length ≤ 5 * n + 5 := by
  rcases h with h | ⟨gs, q, rfl, hall, hq, rfl⟩
  · exact h.length_le.trans (Nat.le_add_right _ _)
  · have hlast := hq.length_le
    have hne : gs ++ [q] ≠ [] := List.append_ne_nil_of_right_ne_nil gs (List.cons_ne_nil q [])
    have hlen := Text.length_intercalate (Text.byte ':') hne
    have hsum := sum_lengths_le fun g hg => (hall g hg).1.2
    rw [List.map_append, List.sum_append, List.map_singleton, List.sum_singleton] at hlen
    rw [joined]
    omega

/-- The longest addresses have six groups of four digits and a quad of twelve. -/
theorem Address.length_le (h : Address t) : t.length ≤ 45 := by
  rcases h with h | h | ⟨m, n, l, r, hmn, hl, hr, rfl⟩
  · exact h.length_le.trans (by decide)
  · exact h.length_le
  · have hlenl := hl.length_le
    have hlenr := hr.length_le
    have hcolons : ("::" : Text).length = 2 := rfl
    rw [List.length_append, List.length_append, hcolons]
    omega

/-! ## The check -/

theorem accepts_iff {host : Text} :
    accepts host = true ↔ host.length ≤ maxLength ∧ Address host.untilNul := by
  simp only [accepts, Bool.and_eq_true, Bool.or_eq_true, bne_iff_ne, decide_eq_true_eq, isQuad_iff,
    isGroups_iff]
  constructor
  · rintro ⟨⟨_, hlen⟩, haddress⟩
    exact ⟨hlen, haddress⟩
  · rintro ⟨hlen, haddress⟩
    refine ⟨⟨?_, hlen⟩, haddress⟩
    rintro rfl
    exact Address.ne_nil haddress rfl

/-- **Which hosts are accepted.** Exactly the addresses are, and besides them the texts of at most 46 bytes
that have an address in front of their first zero byte, whatever is behind it. Every address is shorter
than that, and none has a zero byte in it, so that of the texts without a zero byte exactly the addresses
are accepted. -/
theorem accepts_addresses (host : Text) :
    (accepts host = true ↔ ∃ address, Address address ∧
      (host = address ∨ ∃ rest, host = address ++ 0 :: rest ∧ host.length ≤ 46)) ∧
    (Address host → host.length ≤ 45 ∧ 0 ∉ host) ∧
    (0 ∉ host → (accepts host = true ↔ Address host)) := by
  refine ⟨?_, fun h => ⟨h.length_le, h.zero_not_mem⟩, fun hzero => ?_⟩
  · rw [accepts_iff]
    constructor
    · rintro ⟨hlen, haddress⟩
      refine ⟨_, haddress, (Text.untilNul_cases host).imp_right ?_⟩
      rintro ⟨rest, hrest⟩
      exact ⟨rest, hrest, hlen⟩
    · rintro ⟨address, haddress, rfl | ⟨rest, rfl, hlen⟩⟩
      · rw [Text.untilNul_of_not_mem haddress.zero_not_mem]
        exact ⟨haddress.length_le.trans (by decide), haddress⟩
      · rw [Text.untilNul_append haddress.zero_not_mem]
        exact ⟨hlen, haddress⟩
  · rw [accepts_iff, Text.untilNul_of_not_mem hzero]
    exact ⟨fun h => h.2, fun h => ⟨h.length_le.trans (by decide), h⟩⟩

/-- The longest address is accepted, also with a zero byte behind it, which leaves no room for more. -/
theorem accepts_addresses_of_full_length :
    ∃ host : Text, host = "ffff:ffff:ffff:ffff:ffff:ffff:255.255.255.255" ∧ 0 ∉ host ∧
      Address host ∧ host.length = 45 ∧ accepts (host ++ [0]) = true ∧
      accepts (host ++ [0, 0]) = false := by
  let host : Text := "ffff:ffff:ffff:ffff:ffff:ffff:255.255.255.255"
  have hfree : 0 ∉ host := by decide
  have haddress : Address host := ((accepts_addresses host).2.2 hfree).1 (by decide +kernel)
  have hshort := ((accepts_addresses host).2.1 haddress).1
  have hbehind : accepts (host ++ [0]) = true :=
    (accepts_addresses (host ++ [0])).1.2 ⟨host, haddress, .inr ⟨[], rfl, Nat.succ_le_succ hshort⟩⟩
  exact ⟨host, rfl, hfree, haddress, by decide, hbehind, by decide +kernel⟩

/-- A zero byte ends what is looked at, and what is behind it is accepted unseen. -/
theorem no_address_is_accepted :
    ∃ host : Text, host = ("127.0.0.1" : Text) ++ [0, Text.byte 'x'] ∧ accepts host = true ∧ ¬Address host ∧
      ¬∀ t, accepts t = true ↔ Address t := by
  let host : Text := ("127.0.0.1" : Text) ++ [0, Text.byte 'x']
  have haccepts : accepts host = true := by decide +kernel
  have hno : ¬Address host := fun haddress => haddress.zero_not_mem (by decide)
  exact ⟨host, rfl, haccepts, hno, fun h => hno ((h host).1 haccepts)⟩

end Host
end Sessions
