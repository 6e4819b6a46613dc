import Sessions.Record.Draft

/-!
# Sessions.Record.Sheet

A record to work on step by step, with a copy kept aside. A copy is a value: later changes of the
record do not show in it.
-/

namespace Sessions

/-- A record in work, and a copy of an earlier state of it. -/
structure RecordSheet where
  current : Record
  saved : Record
deriving DecidableEq, Repr

namespace RecordSheet

def new (r : Record) : RecordSheet := ⟨r, r⟩

inductive Command where
  | apply (op : Record.Op)
  | save
  | restore
  | equalsSaved
  | equals (d : Draft)
  | snapshot
deriving DecidableEq, Repr

inductive Reply where
  | done
  | answer (a : Record.Answer)
  | flag (b : Bool)
  | record (r : Record)
deriving DecidableEq, Repr

def perform (s : RecordSheet) : Command → Except Fault Reply × RecordSheet
  | .apply op =>
    let (a, r) := s.current.perform op
    (a.map .answer, { s with current := r })
  | .save => (.ok .done, { s with saved := s.current })
  | .restore => (.ok .done, { s with current := s.saved })
  | .equalsSaved => (.ok (.flag (s.current.same s.saved)), s)
  | .equals d => (d.build.map fun r => .flag (s.current.same r), s)
  | .snapshot => (.ok (.record s.saved), s)

end RecordSheet
end Sessions
