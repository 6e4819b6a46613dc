import Sessions.Attributes

/-!
# Sessions.Attributes.Sheet

Attributes to work on step by step, with a copy kept aside. `Sheet.perform` carries out one step;
only `at`, the strict look-up, can fail, on a key that is not there.
-/

namespace Sessions

/-- Attributes in work, and a copy of an earlier state of them. -/
structure Sheet where
  current : Attributes
  saved : Attributes

namespace Sheet

/-- A sheet with given attributes; the copy is empty. -/
def new (a : Attributes) : Sheet := ⟨a, Attributes.empty⟩

inductive Command where
  | set (key : Text) (value : Value)
  /-- Look a key up, writing an empty text first where it is missing. -/
  | getOrInsert (key : Text)
  | strictGet (key : Text)
  | get (key : Text)
  | erase (key : Text)
  | contains (key : Text)
  | size
  | isEmpty
  | clear
  | save
  | equalsSaved
  | reset (entries : List Entry)
deriving DecidableEq, Repr

inductive Reply where
  | done
  | value (v : Value)
  | found (v : Option Value)
  | flag (b : Bool)
  | count (n : Nat)
  | missing
deriving DecidableEq, Repr

def put (s : Sheet) (a : Attributes) : Sheet := { s with current := a }

def perform (s : Sheet) : Command → Reply × Sheet
  | .set key value => (.done, s.put (s.current.set key value))
  | .getOrInsert key =>
    let (v, a) := s.current.getOrInsert key
    (.value v, s.put a)
  | .strictGet key =>
    match s.current.get? key with
    | some v => (.value v, s)
    | none => (.missing, s)
  | .get key => (.found (s.current.get? key), s)
  | .erase key =>
    let (v, a) := s.current.erase key
    (.found v, s.put a)
  | .contains key => (.flag (s.current.contains key), s)
  | .size => (.count s.current.size, s)
  | .isEmpty => (.flag (s.current.size == 0), s)
  | .clear => (.done, s.put Attributes.empty)
  | .save => (.done, { s with saved := s.current })
  | .equalsSaved => (.flag (s.current.same s.saved), s)
  | .reset entries => (.done, s.put (Attributes.ofList entries))

end Sheet
end Sessions
