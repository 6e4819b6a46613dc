import Mathlib.Data.List.Lex
import Sessions.Proofs.Calendar.Days
import Sessions.Proofs.Text.Decimal
import Sessions.Proofs.Text.Pieces

/-!
# Sessions.Proofs.Calendar.Rendering

The text of a timestamp. It has the form of a date and a time of day, the date and the time are there, and
the instant that they denote is the timestamp. So no two timestamps have the same text, and as long as years
have four digits the order of the texts is the order of the timestamps.

* `Text.written` puts digits and the bytes behind them together; `Text.written_inj` and `Text.le_written`
  say what can be read off the result.
* `Moment.Spelled` is the form of the text, `Moment.instant` the instant that a date and a time denote.
* `Timestamp.text_tells_time` has it all together.
-/

namespace Sessions

namespace Text

open Numeral

variable {fs gs : List Text} {seps : Text}

/-- Digits with a byte behind each of them. -/
def written : List Text → Text → Text
  | f :: fs, b :: seps => f ++ b :: written fs seps
  | _, _ => []

/-- Where the bytes behind them are no digits, the digits can be told. -/
theorem written_inj (hf : ∀ f ∈ fs, Digits f) (hg : ∀ g ∈ gs, Digits g)
    (hseps : ∀ b ∈ seps, isDigit b = false) (hlenf : fs.length = seps.length)
    (hleng : gs.length = seps.length) (h : written fs seps = written gs seps) : fs = gs := by
  induction seps generalizing fs gs with
  | nil => rw [List.eq_nil_of_length_eq_zero hlenf, List.eq_nil_of_length_eq_zero hleng]
  | cons b seps ih =>
    obtain ⟨f, fs, rfl⟩ := List.exists_cons_of_length_eq_add_one hlenf
    obtain ⟨g, gs, rfl⟩ := List.exists_cons_of_length_eq_add_one hleng
    obtain ⟨hf, hfs⟩ := List.forall_mem_cons.1 hf
    obtain ⟨hg, hgs⟩ := List.forall_mem_cons.1 hg
    obtain ⟨hb, hseps⟩ := List.forall_mem_cons.1 hseps
    have hstop : ∀ rest : Text, ∀ a ∈ (b :: rest).head?, isDigit a = false := by simp [hb]
    rw [written, written] at h
    have hhead := congrArg (List.takeWhile isDigit) h
    rw [(span_of_stop hf (hstop _)).1, (span_of_stop hg (hstop _)).1] at hhead
    rw [hhead, List.append_cancel_left_eq, List.cons.injEq] at h
    rw [hhead, ih hfs hgs hseps (Nat.succ_inj.1 hlenf) (Nat.succ_inj.1 hleng) h.2]

/-- Digits that are as many, place by place, are in the order of their values. -/
theorem le_written (hf : ∀ f ∈ fs, Digits f) (hg : ∀ g ∈ gs, Digits g)
    (hlen : fs.map List.length = gs.map List.length)
    (h : (fs.map ofDigits).Lex (· < ·) (gs.map ofDigits)) :
    le (written fs seps) (written gs seps) = true := by
  induction fs generalizing gs seps with
  | nil => rfl
  | cons f fs ih =>
    cases gs with
    | nil => cases hlen
    | cons g gs =>
      cases seps with
      | nil => rfl
      | cons b seps =>
        obtain ⟨hf, hfs⟩ := List.forall_mem_cons.1 hf
        obtain ⟨hg, hgs⟩ := List.forall_mem_cons.1 hg
        obtain ⟨hlen, hlens⟩ := List.cons.inj hlen
        rw [written, written]
        rcases List.cons_lex_cons_iff.1 h with hlt | ⟨heq, hlt⟩
        · exact le_append_of_lt hlen hf hg hlt _ _
        · rw [eq_of_ofDigits_eq hf hg hlen heq, le_append_left, ← List.singleton_append,
            ← List.singleton_append (l := written gs seps), le_append_left]
          exact ih hfs hgs hlens hlt

end Text

namespace Moment

/-- There is such a date, and such a time of day. -/
structure Proper (m : Moment) : Prop where
  date : m.date.Proper
  hour : m.hour ≤ 23
  minute : m.minute ≤ 59
  second : m.second ≤ 59
  milli : m.milli ≤ 999

/-- The milliseconds from the start of 1970 to a moment of that year or of a later one. -/
def instant (m : Moment) : Nat :=
  (((m.date.sinceEpoch * 24 + m.hour) * 60 + m.minute) * 60 + m.second) * 1000 + m.milli

/-- From the year down to the milliseconds. -/
def figures (m : Moment) : List Nat :=
  [m.date.year, m.date.month, m.date.day, m.hour, m.minute, m.second, m.milli]

/-- The text has the form `YYYY-MM-DDTHH:MM:SS.mmmZ`, with four digits in the year or more, and its digits
give the moment. -/
def Spelled (m : Moment) (text : Text) : Prop :=
  ∃ fs : List Text, text = Text.written fs "--T::.Z" ∧ (∀ f ∈ fs, Text.Digits f) ∧
    fs.map Numeral.ofDigits = m.figures ∧
    ∃ width, 4 ≤ width ∧ fs.map List.length = [width, 2, 2, 2, 2, 2, 3]

variable {m m' : Moment} {s : Text}

theorem eq_of_figures_eq (h : m.figures = m'.figures) : m = m' := by
  obtain ⟨⟨year, month, day⟩, hour, minute, second, milli⟩ := m
  obtain ⟨⟨year', month', day'⟩, hour', minute', second', milli'⟩ := m'
  simpa [figures, and_assoc] using h

/-- A later date, or a later time of the same day, is a later instant. -/
theorem instant_lt (h : m.Proper) (hepoch : 1970 ≤ m.date.year)
    (hlt : m.figures.Lex (· < ·) m'.figures) : m.instant < m'.instant := by
  have hdays : m.date.sinceEpoch < m'.date.sinceEpoch ∨ m.date = m'.date ∧
      [m.hour, m.minute, m.second, m.milli].Lex (· < ·)
        [m'.hour, m'.minute, m'.second, m'.milli] := by
    simp only [figures, List.cons_lex_cons_iff (a := m.date.year),
      List.cons_lex_cons_iff (a := m.date.month), List.cons_lex_cons_iff (a := m.date.day)] at hlt
    rcases hlt with hyear | ⟨hyear, hmonth | ⟨hmonth, hday | ⟨hday, hclock⟩⟩⟩
    · exact .inl (Date.sinceEpoch_lt h.date hepoch (.inl hyear))
    · exact .inl (Date.sinceEpoch_lt h.date hepoch (.inr ⟨hyear, .inl hmonth⟩))
    · exact .inl (Date.sinceEpoch_lt h.date hepoch (.inr ⟨hyear, .inr ⟨hmonth, hday⟩⟩))
    · exact .inr ⟨by rw [Date.mk.injEq]; exact ⟨hyear, hmonth, hday⟩, hclock⟩
  have hhour := h.hour
  have hminute := h.minute
  have hsecond := h.second
  have hmilli := h.milli
  unfold instant
  rcases hdays with hdays | ⟨hdate, hclock⟩
  · omega
  · rw [hdate]
    simp only [List.cons_lex_cons_iff, List.not_lex_nil, and_false, or_false] at hclock
    omega

/-- The moment of a timestamp is one that there is, and it denotes the timestamp. -/
theorem instant_ofTimestamp (t : Timestamp) :
    (ofTimestamp t).Proper ∧ 1970 ≤ (ofTimestamp t).date.year ∧ (ofTimestamp t).instant = t.toNat := by
  obtain ⟨hdate, hyear, hdays⟩ := Date.sinceEpoch_ofDays (t.toNat / 1000 / 86400)
  refine ⟨⟨hdate, ?_, ?_, ?_, ?_⟩, hyear, ?_⟩
  · exact Nat.le_of_lt_succ (Nat.mod_lt _ (by decide))
  · exact Nat.le_of_lt_succ (Nat.mod_lt _ (by decide))
  · exact Nat.le_of_lt_succ (Nat.mod_lt _ (by decide))
  · exact Nat.le_of_lt_succ (Nat.mod_lt _ (by decide))
  · unfold instant ofTimestamp
    dsimp only
    rw [hdays]
    omega

/-- The first moment of a year. -/
def newYear (y : Nat) : Moment := ⟨⟨y, 1, 1⟩, 0, 0, 0, 0⟩

theorem instant_newYear (y : Nat) :
    (newYear y).instant = (∑ k ∈ Finset.Ico 1970 y, Calendar.daysInYear k) * 86400000 := by
  simp only [instant, Date.sinceEpoch, newYear, Finset.Ico_self, Finset.sum_empty]
  omega

theorem instant_newYear_le {y : Nat} (h : y ≤ m.date.year) : (newYear y).instant ≤ m.instant := by
  have hyears := Finset.sum_le_sum_of_subset (f := Calendar.daysInYear)
    (Finset.Ico_subset_Ico_right (a := 1970) h)
  rw [instant_newYear]
  unfold instant Date.sinceEpoch
  omega

/-! ## The text of a moment -/

/-- The digits that a moment is written with. -/
def fields (m : Moment) : List Text :=
  [Text.padded 4 m.date.year, Text.padded 2 m.date.month, Text.padded 2 m.date.day,
    Text.padded 2 m.hour, Text.padded 2 m.minute, Text.padded 2 m.second, Text.padded 3 m.milli]

theorem text_eq_written (m : Moment) : m.text = Text.written m.fields "--T::.Z" := by
  simp only [text, List.append_assoc]
  rfl

theorem digits_fields (m : Moment) : ∀ f ∈ m.fields, Text.Digits f := by
  simp [fields, Text.digits_padded]

theorem ofDigits_fields (m : Moment) : m.fields.map Numeral.ofDigits = m.figures := by
  simp [fields, figures, Text.ofDigits_padded]

/-- Every field has its width, but a year may have more than four digits. -/
theorem Proper.length_fields (h : m.Proper) :
    m.fields.map List.length = [(Text.padded 4 m.date.year).length, 2, 2, 2, 2, 2, 3] := by
  have hday : m.date.day ≤ 31 := h.date.day.2.trans (Calendar.daysInMonth_le _ _)
  have htwo : ∀ {n : Nat}, n < 100 → (Text.padded 2 n).length = 2 :=
    fun hn => Text.length_padded (by decide) hn
  have hmilli : (Text.padded 3 m.milli).length = 3 :=
    Text.length_padded (by decide) (Nat.lt_succ_of_le h.milli)
  simp only [fields, List.map_cons, List.map_nil, hmilli,
    htwo (Nat.lt_of_le_of_lt h.date.month.2 (by decide)), htwo (Nat.lt_of_le_of_lt hday (by decide)),
    htwo (Nat.lt_of_le_of_lt h.hour (by decide)), htwo (Nat.lt_of_le_of_lt h.minute (by decide)),
    htwo (Nat.lt_of_le_of_lt h.second (by decide))]

theorem Proper.spelled_text (h : m.Proper) : m.Spelled m.text :=
  ⟨m.fields, m.text_eq_written, m.digits_fields, m.ofDigits_fields, _, Text.le_length_padded 4 _,
    h.length_fields⟩

/-- A text spells one moment at most. -/
theorem Spelled.unique (h : m.Spelled s) (h' : m'.Spelled s) : m = m' := by
  obtain ⟨fs, rfl, hf, hm, w, _, hwidth⟩ := h
  obtain ⟨gs, heq, hg, hm', w', _, hwidth'⟩ := h'
  have hlen : ∀ {fs : List Text} {w : Nat}, fs.map List.length = [w, 2, 2, 2, 2, 2, 3] →
      fs.length = ("--T::.Z" : Text).length := fun h => by
    rw [← List.length_map (f := List.length), h]
    rfl
  have hseps : ∀ b ∈ ("--T::.Z" : Text), Text.isDigit b = false := by decide +kernel
  have hfields := Text.written_inj hf hg hseps (hlen hwidth) (hlen hwidth') heq
  exact eq_of_figures_eq (by rw [← hm, ← hm', hfields])

end Moment

namespace Timestamp

open Moment

variable {t u : Timestamp}

theorem text_inj (h : t.text = u.text) : t = u := by
  obtain ⟨hproper, _, hinstant⟩ := instant_ofTimestamp t
  obtain ⟨hproper', _, hinstant'⟩ := instant_ofTimestamp u
  have hspelled : (ofTimestamp u).Spelled t.text := by
    rw [h]
    exact hproper'.spelled_text
  have hmoment := hproper.spelled_text.unique hspelled
  rw [← UInt64.toNat_inj, ← hinstant, ← hinstant', hmoment]

/-- Before the year 10000 a year has four digits. -/
theorem year_lt (h : t.toNat < (newYear 10000).instant) : (ofTimestamp t).date.year < 10000 := by
  by_contra hyear
  have hle := instant_newYear_le (Nat.not_lt.1 hyear)
  rw [(instant_ofTimestamp t).2.2] at hle
  omega

/-- Where all years have four digits, an earlier timestamp has the earlier text. -/
theorem text_le_of_lt (ht : t.toNat < (newYear 10000).instant) (hu : u.toNat < (newYear 10000).instant)
    (h : t < u) : Text.le t.text u.text = true := by
  obtain ⟨hproper, hyear, hinstant⟩ := instant_ofTimestamp t
  obtain ⟨hproper', hyear', hinstant'⟩ := instant_ofTimestamp u
  have hwidth : (Text.padded 4 (ofTimestamp t).date.year).length =
      (Text.padded 4 (ofTimestamp u).date.year).length := by
    rw [Text.length_padded (by decide) (year_lt ht), Text.length_padded (by decide) (year_lt hu)]
  rw [text, text, text_eq_written, text_eq_written]
  refine Text.le_written (digits_fields _) (digits_fields _) ?_ ?_
  · rw [hproper.length_fields, hproper'.length_fields, hwidth]
  · rw [ofDigits_fields, ofDigits_fields]
    rw [UInt64.lt_iff_toNat_lt, ← hinstant, ← hinstant'] at h
    rcases trichotomous_of (List.Lex (· < ·)) (ofTimestamp t).figures (ofTimestamp u).figures with
      hlt | heq | hgt
    · exact hlt
    · rw [eq_of_figures_eq heq] at h
      exact absurd h (Nat.lt_irrefl _)
    · exact absurd (instant_lt hproper' hyear' hgt) (Nat.lt_asymm h)

/-- **Timestamps in words.** The text of a timestamp is the form `YYYY-MM-DDTHH:MM:SS.mmmZ` of one moment
and of no other; there is such a date and such a time of day, and the instant that they denote, counted
from the start of 1970, is the timestamp. Timestamps that differ have texts that differ, and before the year
10000 the texts come in the order of the timestamps. -/
theorem text_tells_time (t : Timestamp) :
    (∃ m : Moment, m.Spelled t.text ∧ m.Proper ∧ 1970 ≤ m.date.year ∧ m.instant = t.toNat ∧
      ∀ m' : Moment, m'.Spelled t.text → m' = m) ∧
    (∀ u : Timestamp, t.text = u.text → t = u) ∧
    (∀ u : Timestamp, t.toNat < (newYear 10000).instant → u.toNat < (newYear 10000).instant →
      (Text.le t.text u.text = true ↔ t ≤ u)) := by
  obtain ⟨hproper, hyear, hinstant⟩ := instant_ofTimestamp t
  refine ⟨⟨ofTimestamp t, hproper.spelled_text, hproper, hyear, hinstant,
    fun m' hm' => hm'.unique hproper.spelled_text⟩, fun u => text_inj,
    fun u ht hu => ⟨fun h => ?_, fun h => ?_⟩⟩
  · by_contra hle
    have hback := text_le_of_lt hu ht (UInt64.not_le.1 hle)
    exact hle (UInt64.le_of_eq (text_inj (Text.le_antisymm h hback)))
  · rcases UInt64.lt_or_eq_of_le h with hlt | rfl
    · exact text_le_of_lt ht hu hlt
    · exact Text.le_refl _

theorem text_tells_time_of_leap_day :
    (∀ m : Moment, m.Spelled "2000-02-29T23:59:59.999Z" → m.instant = 951868799999) ∧
      Text.le "2000-02-29T23:59:59.999Z" "9999-12-31T23:59:59.999Z" = true := by
  have hleap : Timestamp.text 951868799999 = "2000-02-29T23:59:59.999Z" := by decide +kernel
  have hlast : Timestamp.text 253402300799999 = "9999-12-31T23:59:59.999Z" := by decide +kernel
  have hend : (newYear 10000).instant = 253402300800000 := by
    have hdays := Calendar.sum_daysInYear (y := 10000) (by decide)
    rw [instant_newYear]
    generalize ∑ k ∈ Finset.Ico 1970 10000, Calendar.daysInYear k = days at *
    omega
  have hbefore : UInt64.toNat 951868799999 < (newYear 10000).instant := by
    rw [hend]
    decide
  have hbefore' : UInt64.toNat 253402300799999 < (newYear 10000).instant := by
    rw [hend]
    decide
  have htells := text_tells_time 951868799999
  rw [hleap] at htells
  obtain ⟨⟨m, _, _, _, hinstant, hunique⟩, _, horder⟩ := htells
  have hle := (horder 253402300799999 hbefore hbefore').2 (by decide)
  rw [hlast] at hle
  refine ⟨fun m' hm' => ?_, hle⟩
  rw [hunique m' hm', hinstant]
  decide

end Timestamp
end Sessions
