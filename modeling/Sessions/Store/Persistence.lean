import Sessions.Files
import Sessions.Store
import Sessions.Text.Numeral

/-!
# Sessions.Store.Persistence

Keeping a store in a file: a first line with the number of records, then a line for each. How a
record is written on its line is left open, a `Codec` says it.

Loading replaces everything or nothing. Without a readable count at the front the store stays as it
is; with one, the records of the lines that follow it (at most as many as the count says) replace
all others, and a line that is no record is skipped with a warning.
-/

namespace Sessions

structure Codec where
  encode : Record → Text
  decode : Text → Option Record

namespace Store

def recordLine (c : Codec) (r : Record) : Text := c.encode r ++ "\n"

def image (s : Store) (c : Codec) : Text :=
  Text.decimal s.size ++ "\n" ++ s.records.list.flatMap (recordLine c)

def save (s : Store) (c : Codec) (fs : Files) : Except Fault (Files × List LogLine) :=
  if s.file = [] then .error (Fault.persistence [] "no persistence file configured")
  else
    match fs.write? s.file (s.image c) with
    | none => .error (Fault.persistence s.file "cannot open file for writing")
    | some fs' =>
      .ok (fs', [⟨.debug, "Saved " ++ Text.decimal s.size ++ " sessions to " ++ s.file⟩])

structure Intake where
  records : Roster
  count : Nat
  warnings : List LogLine

/-- Take the records of lines, the first of which has the given number in the file. -/
def intake (c : Codec) (file : Text) : (number : Nat) → List Text → Intake → Intake
  | _, [], acc => acc
  | n, l :: ls, acc =>
    match c.decode l with
    | some r => intake c file (n + 1) ls { acc with
        records := acc.records.put r
        count := acc.count + 1 }
    | none => intake c file (n + 1) ls { acc with
        warnings := acc.warnings ++
          [⟨.warn, "Skipping malformed session record at line " ++ Text.decimal n ++ " of " ++
            file⟩] }

/-- Replace the records by those of a text, where it begins with a count. The byte behind the count
separates it from the first line. -/
def loadText (s : Store) (c : Codec) (text : Text) : Nat × Store × List LogLine :=
  match text.leadingCount? with
  | none =>
    (0, s, [⟨.warn, "Session persistence file " ++ s.file ++ " has no header, ignoring"⟩])
  | some (count, rest) =>
    let taken := intake c s.file 2 ((Text.lines (rest.drop 1)).take count) ⟨Roster.empty, 0, []⟩
    (taken.count, { s with records := taken.records }, taken.warnings ++
      [⟨.debug, "Loaded " ++ Text.decimal taken.count ++ " sessions from " ++ s.file⟩])

/-- Read the store from its file, if there is one; says how many records came in. -/
def load (s : Store) (c : Codec) (fs : Files) : Nat × Store × List LogLine :=
  if s.file = [] then (0, s, [])
  else
    match fs.read? s.file with
    | none => (0, s, [])
    | some text => s.loadText c text

/-- A store as its settings describe it, with the records of its file. -/
def openWith (p : StorePolicy) (c : Codec) (fs : Files) : Store × List LogLine :=
  ((new p).load c fs).2

/-- Save the store if its settings ask for it. A failure is only logged. -/
def close (s : Store) (c : Codec) (fs : Files) : Files × List LogLine :=
  if s.isPersistent && s.saveOnClose then
    match s.save c fs with
    | .ok done => done
    | .error f => (fs, [⟨.error, "Session store shutdown: " ++ f.message⟩])
  else (fs, [])

end Store
end Sessions
