import Sessions.Proofs.Text.Numeral
import Sessions.Proofs.Text.Pieces
import Sessions.Store.Persistence

/-!
# Sessions.Proofs.Store.Loading

A store that is read from its file. Either nothing changes, or the records of the file are all that there
are, and nothing else is different.

* `Roster.get?_foldl_put`: of records with the same id that are put in one behind the other, the last one
  stays.
* `Store.intake_eq`: what is taken from lines.
* `Store.load_replaces_all_or_nothing` is about every store and every file.
-/

namespace Sessions

theorem Roster.get?_foldl_put (rs : List Record) (s : Roster) (id : Id) :
    (rs.foldl put s).get? id = (rs.reverse.find? (·.id = id)).or (s.get? id) := by
  induction rs generalizing s with
  | nil => rfl
  | cons r rs ih =>
    rw [List.foldl_cons, ih, get?_put, List.reverse_cons, List.find?_append, Option.or_assoc]
    by_cases hid : id = r.id
    · simp [hid]
    · simp [hid, Ne.symm hid]

namespace Store

variable {s : Store} {c : Codec} {fs : Files} {text rest : Text} {count : Nat}

/-- The warning for a line that is no record, by its number in the file. -/
def skipWarning (file : Text) (number : Nat) : LogLine :=
  ⟨.warn, "Skipping malformed session record at line " ++ Text.decimal number ++ " of " ++ file⟩

/-- The numbers of the lines that are no records, where the first line has the given one. -/
def malformed (c : Codec) (number : Nat) (ls : List Text) : List Nat :=
  ((ls.zipIdx number).filter fun l => (c.decode l.1).isNone).map (·.2)

/-- The store has come to hold the given records and no others. Of those with the same id it holds the
last one. Nothing else about it is different. -/
structure Refilled (s : Store) (rs : List Record) (s' : Store) : Prop where
  read : ∀ id, s'.read id = rs.reverse.find? (·.id = id)
  frame : s' = { s with records := s'.records }

theorem intake_eq (c : Codec) (file : Text) (n : Nat) (ls : List Text) (acc : Intake) :
    intake c file n ls acc =
      { records := (ls.filterMap c.decode).foldl Roster.put acc.records
        count := acc.count + (ls.filterMap c.decode).length
        warnings := acc.warnings ++ (malformed c n ls).map (skipWarning file) } := by
  fun_induction intake c file n ls acc with
  | case1 n acc => simp [malformed]
  | case2 n acc l ls r hr ih =>
    rw [ih]
    simp [malformed, hr]
    omega
  | case3 n acc l ls hnone ih =>
    rw [ih]
    simp [malformed, hnone, skipWarning]

theorem load_of_read (hfile : s.file ≠ []) (hread : fs.read? s.file = some text) :
    s.load c fs = s.loadText c text := by
  rw [load, if_neg hfile, hread]

/-- Without a count in front of it a text is only warned about. -/
theorem loadText_of_not_counted (h : ∀ count rest, ¬ Text.Counted text count rest) :
    (s.loadText c text).1 = 0 ∧ (s.loadText c text).2.1 = s := by
  have hnone : text.leadingCount? = none := by
    refine Option.eq_none_iff_forall_ne_some.2 fun p hp => ?_
    exact h p.1 p.2 (Text.leadingCount?_eq_some_iff.1 hp)
  rw [loadText, hnone]
  exact ⟨rfl, rfl⟩

/-- Behind a count the records of the lines replace all others. -/
theorem loadText_of_counted (h : Text.Counted text count rest) :
    let ls := (Text.lines (rest.drop 1)).take count
    let rs := ls.filterMap c.decode
    (s.loadText c text).1 = rs.length ∧ s.Refilled rs (s.loadText c text).2.1 ∧
      (s.loadText c text).2.2 = (malformed c 2 ls).map (skipWarning s.file) ++
        [⟨.debug, "Loaded " ++ Text.decimal rs.length ++ " sessions from " ++ s.file⟩] := by
  intro ls rs
  rw [loadText, Text.leadingCount?_eq_some_iff.2 h]
  dsimp only
  rw [intake_eq]
  refine ⟨Nat.zero_add _, ⟨fun id => ?_, rfl⟩, ?_⟩
  · exact (Roster.get?_foldl_put rs Roster.empty id).trans (by simp)
  · rw [List.nil_append, Nat.zero_add]

/-- **Loading is all or nothing.** Where there is no file, or it cannot be opened, or there is no count in
front of its text, nothing comes in and the store is as it was. Otherwise the store holds the records of the
lines behind the count and the byte that ends it, of as many lines as the count says or as there are; it
says how many these records were, warns of each other line once, and is in no other way different. -/
theorem load_replaces_all_or_nothing (s : Store) (c : Codec) (fs : Files) :
    (s.file = [] ∨ fs.read? s.file = none ∨
        (∃ text, fs.read? s.file = some text ∧ ∀ count rest, ¬ Text.Counted text count rest) →
      (s.load c fs).1 = 0 ∧ (s.load c fs).2.1 = s) ∧
    ∀ text count rest, s.file ≠ [] → fs.read? s.file = some text → Text.Counted text count rest →
      ∃ ls, Text.Lined (rest.drop 1) ls ∧
        (s.load c fs).1 = ((ls.take count).filterMap c.decode).length ∧
        s.Refilled ((ls.take count).filterMap c.decode) (s.load c fs).2.1 ∧
        ∃ last : LogLine, last.level = .debug ∧
          (s.load c fs).2.2 = (malformed c 2 (ls.take count)).map (skipWarning s.file) ++ [last] := by
  refine ⟨fun h => ?_, fun text count rest hfile hread hcounted => ?_⟩
  · by_cases hfile : s.file = []
    · rw [load, if_pos hfile]
      exact ⟨rfl, rfl⟩
    · rcases h with hnil | hread | ⟨text, hread, htext⟩
      · exact absurd hnil hfile
      · rw [load, if_neg hfile, hread]
        exact ⟨rfl, rfl⟩
      · rw [load_of_read hfile hread]
        exact loadText_of_not_counted htext
  · obtain ⟨hnumber, hrefilled, hlines⟩ := loadText_of_counted (s := s) (c := c) hcounted
    rw [load_of_read hfile hread]
    exact ⟨_, Text.lined_lines _, hnumber, hrefilled, _, rfl, hlines⟩

/-- The count asks for three lines of five: two records of one session, and a line between them that is no
record. -/
theorem load_replaces_all_or_nothing_of_three_lines :
    ∃ (s : Store) (c : Codec) (fs : Files), s.contains "y" = true ∧
      (s.load c .empty).1 = 0 ∧ (s.load c .empty).2.1 = s ∧
      (s.load c fs).1 = 2 ∧ (s.load c fs).2.1.read "x" = some (.new "x" 2 none 0) ∧
      (s.load c fs).2.1.read "y" = none ∧ (s.load c fs).2.1.created = 1 ∧
      (s.load c fs).2.2.filter (·.level = .warn) = [skipWarning "sessions" 3] := by
  let c : Codec := ⟨Record.id, fun l => if l = "1" then some (.new "x" 1 none 0) else
    if l = "2" then some (.new "x" 2 none 0) else none⟩
  let s : Store := (new { file := "sessions" }).insert (.new "y" 0 none 0)
  let fs : Files := ⟨[("sessions", " 3\n1\n\n2\n1\n1\n")]⟩
  have hcounted : Text.Counted " 3\n1\n\n2\n1\n1\n" 3 "\n1\n\n2\n1\n1\n" :=
    Text.leadingCount?_eq_some_iff.1 (by decide)
  obtain ⟨ls, hlined, hnumber, hrefilled, last, hlast, hlines⟩ :=
    (load_replaces_all_or_nothing s c fs).2 _ _ _ (by decide) (by decide) hcounted
  obtain ⟨hzero, hsame⟩ := (load_replaces_all_or_nothing s c .empty).1 (.inr (.inl (by decide)))
  rw [Text.lined_iff.1 hlined] at hnumber hrefilled hlines
  refine ⟨s, c, fs, by decide, hzero, hsame, hnumber, (hrefilled.read _).trans (by decide),
    (hrefilled.read _).trans (by decide), ?_, ?_⟩
  · rw [hrefilled.frame]
    rfl
  · have hskipped :
        malformed c 2 ((Text.lines (("\n1\n\n2\n1\n1\n" : Text).drop 1)).take 3) = [3] := by decide
    have hwarn : (last.level = .warn) = False := by
      rw [hlast]
      decide
    rw [hlines, hskipped]
    simp [hwarn, skipWarning, s, new, insert]

end Store
end Sessions
