import Mathlib.Algebra.Ring.Nat
import Mathlib.Data.List.TakeWhile
import Sessions.Text

/-!
# Sessions.Proofs.Text.Pieces

Texts that are cut. The pieces of a text are those that make the text when the byte that it was cut at is
put between them again; the lines are what is read by going from one line feed to the next.

* `Text.pieces_eq_splitOn`: cutting is what the library knows as splitting. `Text.pieces_eq_iff` tells the
  pieces without it.
* `Text.Lined` is how a text is read line by line, `Text.lined_iff` says that `Text.lines` does so.
-/

namespace Sessions
namespace Text

variable {sep : UInt8} {t l p : Text} {ps ls : List Text}

/-! ## Pieces -/

theorem pieces_eq_splitOn (sep : UInt8) (t : Text) : pieces sep t = t.splitOn sep := by
  induction t with
  | nil => rw [pieces, List.splitOn_nil]
  | cons b t ih =>
    rw [pieces, List.splitOn_cons_eq_if_modifyHead, ih]
    by_cases hb : b = sep
    · simp [hb]
    · rw [if_neg hb, if_neg (by simpa using hb)]
      cases hps : t.splitOn sep with
      | nil => exact absurd hps (List.splitOn_ne_nil sep t)
      | cons p ps => rfl

theorem pieces_ne_nil (sep : UInt8) (t : Text) : pieces sep t ≠ [] := by
  rw [pieces_eq_splitOn]
  exact List.splitOn_ne_nil sep t

theorem not_mem_of_mem_pieces (h : p ∈ pieces sep t) : sep ∉ p := by
  induction t generalizing p with
  | nil =>
    rw [List.mem_singleton.1 h]
    exact List.not_mem_nil
  | cons b t ih =>
    rw [pieces] at h
    split at h
    · rcases List.mem_cons.1 h with rfl | h
      · exact List.not_mem_nil
      · exact ih h
    · rename_i hb
      split at h
      · rename_i hps
        exact absurd hps (pieces_ne_nil sep t)
      · rename_i q qs hps
        rw [hps] at ih
        rcases List.mem_cons.1 h with rfl | h
        · exact List.not_mem_cons_of_ne_of_not_mem (Ne.symm hb) (ih List.mem_cons_self)
        · exact ih (List.mem_cons_of_mem q h)

/-- The pieces of a text have the byte nowhere in them, and they make the text with the byte between them. -/
theorem pieces_eq_iff :
    pieces sep t = ps ↔ ps ≠ [] ∧ (∀ p ∈ ps, sep ∉ p) ∧ t = [sep].intercalate ps := by
  constructor
  · rintro rfl
    refine ⟨pieces_ne_nil sep t, fun p => not_mem_of_mem_pieces, ?_⟩
    rw [pieces_eq_splitOn, List.intercalate_splitOn]
  · rintro ⟨hne, hsep, rfl⟩
    rw [pieces_eq_splitOn, List.splitOn_intercalate sep hsep hne]

theorem pieces_of_not_mem (h : sep ∉ t) : pieces sep t = [t] := by
  rw [pieces_eq_splitOn, List.splitOn_eq_singleton h]

theorem pieces_append (h : sep ∉ l) (t : Text) : pieces sep (l ++ sep :: t) = l :: pieces sep t := by
  rw [pieces_eq_splitOn, List.splitOn_append_cons_self_of_not_mem h, pieces_eq_splitOn]

theorem mem_intercalate {b : UInt8} (h : b ∈ [sep].intercalate ps) : b = sep ∨ ∃ p ∈ ps, b ∈ p := by
  induction ps with
  | nil => exact absurd h List.not_mem_nil
  | cons p ps ih =>
    by_cases hps : ps = []
    · rw [hps, List.intercalate_singleton] at h
      exact .inr ⟨p, List.mem_cons_self, h⟩
    · rw [List.intercalate_cons_of_ne_nil hps, List.mem_append, List.mem_append,
        List.mem_singleton] at h
      rcases h with (h | h) | h
      · exact .inr ⟨p, List.mem_cons_self, h⟩
      · exact .inl h
      · exact (ih h).imp_right fun ⟨q, hq, hb⟩ => ⟨q, List.mem_cons_of_mem p hq, hb⟩

theorem length_intercalate (sep : UInt8) (hne : ps ≠ []) :
    ([sep].intercalate ps).length + 1 = (ps.map fun p => p.length + 1).sum := by
  induction ps with
  | nil => exact absurd rfl hne
  | cons p ps ih =>
    by_cases hps : ps = []
    · rw [hps, List.intercalate_singleton]
      rfl
    · rw [List.intercalate_cons_of_ne_nil hps, List.map_cons, List.sum_cons, ← ih hps]
      simp only [List.length_append, List.length_singleton]
      omega

/-! ## Up to some byte -/

/-- What is taken of a kind ends where something else begins. -/
theorem span_of_stop {p : UInt8 → Bool} {t rest : Text} (ht : ∀ b ∈ t, p b = true)
    (hrest : ∀ b ∈ rest.head?, p b = false) :
    (t ++ rest).takeWhile p = t ∧ (t ++ rest).dropWhile p = rest := by
  rw [List.takeWhile_append_of_pos ht, List.dropWhile_append_of_pos ht]
  cases rest with
  | nil => simp
  | cons b rest =>
    have hb := hrest b rfl
    simp [hb]

theorem all_ne_zero (h : 0 ∉ t) : ∀ b ∈ t, (b != 0) = true := by
  intro b hb
  rw [bne_iff_ne]
  rintro rfl
  exact h hb

theorem untilNul_append (h : 0 ∉ t) (rest : Text) : untilNul (t ++ 0 :: rest) = t := by
  have hstop : ∀ b ∈ (0 :: rest).head?, (b != 0) = false := by simp
  exact (span_of_stop (all_ne_zero h) hstop).1

theorem untilNul_of_not_mem (h : 0 ∉ t) : t.untilNul = t :=
  List.takeWhile_eq_self_iff.2 (all_ne_zero h)

/-- A text is what is in front of its first zero byte, or there is one behind that. -/
theorem untilNul_cases (t : Text) : t = t.untilNul ∨ ∃ rest, t = t.untilNul ++ 0 :: rest := by
  by_cases h : 0 ∈ t
  · obtain ⟨s, rest, ht, hs⟩ := List.eq_append_cons_of_mem h
    refine .inr ⟨rest, ?_⟩
    rw [ht, untilNul_append hs]
  · exact .inl (untilNul_of_not_mem h).symm

/-! ## Lines -/

/-- Reading line by line: up to the next line feed, or up to the end where there is none, until nothing is
left. -/
inductive Lined : Text → List Text → Prop
  | nil : Lined [] []
  | last {l : Text} (hne : l ≠ []) (hl : byte '\n' ∉ l) : Lined l [l]
  | cons {l t : Text} {ls : List Text} (hl : byte '\n' ∉ l) (h : Lined t ls) :
      Lined (l ++ byte '\n' :: t) (l :: ls)

theorem lines_of_not_mem (h : byte '\n' ∉ l) : lines l = if l = [] then [] else [l] := by
  rw [lines, pieces_of_not_mem h]
  simp

theorem lines_append (h : byte '\n' ∉ l) (t : Text) :
    lines (l ++ byte '\n' :: t) = l :: lines t := by
  have hne := pieces_ne_nil (byte '\n') t
  have hlast : (l :: pieces (byte '\n') t).getLast? = (pieces (byte '\n') t).getLast? := by
    rw [List.getLast?_cons, List.getLast?_eq_some_getLast hne, Option.getD_some]
  rw [lines, lines, pieces_append h]
  rw [hlast, List.dropLast_cons_of_ne_nil hne]
  split <;> rfl

theorem lines_of_lined (h : Lined t ls) : lines t = ls := by
  induction h with
  | nil => rfl
  | last hne hl => rw [lines_of_not_mem hl, if_neg hne]
  | cons hl _ ih => rw [lines_append hl, ih]

theorem lined_lines (t : Text) : Lined t (lines t) := by
  by_cases hmem : byte '\n' ∈ t
  · obtain ⟨l, t', ht, hl⟩ := List.eq_append_cons_of_mem hmem
    rw [ht, lines_append hl]
    exact .cons hl (lined_lines t')
  · rw [lines_of_not_mem hmem]
    split
    · rename_i hnil
      exact hnil ▸ .nil
    · rename_i hne
      exact .last hne hmem
termination_by t.length
decreasing_by
  rw [ht, List.length_append, List.length_cons]
  omega

/-- The lines of a text are what is read line by line. -/
theorem lined_iff : Lined t ls ↔ ls = lines t :=
  ⟨fun h => (lines_of_lined h).symm, fun h => h ▸ lined_lines t⟩

end Text
end Sessions
