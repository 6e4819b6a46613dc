import Sessions.Settings
import Sessions.Store.Roster

/-!
# Sessions.Store

The store of sessions in memory. A full store makes room by dropping the ended record that was used
longest ago, and refuses where none ended. A record that ended is never brought back by a live copy
of it. Every operation hands out the lines that it gives to the log.

* `Store.create`, `Store.update`, `Store.remove`, `Store.purge` change the records and count it.
* `Store.metrics` is the account as texts.
-/

namespace Sessions

/-- The records and the counts of what was done to them. The counts have no bound; 64-bit counters agree
with them as long as there are fewer than `2 ^ 64` events of a kind. -/
structure Store where
  records : Roster
  /-- Most records held; zero for no limit. -/
  limit : Nat
  /-- File to keep the records in; empty for none. -/
  file : Text
  saveOnClose : Bool
  created : Nat
  removed : Nat
  updates : Nat
  /-- Records that made room for others. -/
  evictions : Nat
deriving Repr

namespace Store

def new (p : StorePolicy) : Store :=
  { records := Roster.empty, limit := p.maxSessions, file := p.file, saveOnClose := p.saveOnClose
    created := 0, removed := 0, updates := 0, evictions := 0 }

def read (s : Store) (id : Id) : Option Record := s.records.get? id

def contains (s : Store) (id : Id) : Bool := s.records.contains id

def size (s : Store) : Nat := s.records.size

def live (s : Store) : List Record := s.records.live

def isFull (s : Store) : Bool := 0 < s.limit && s.limit ≤ s.size

def evict? (s : Store) : Option (Store × List LogLine) :=
  (Roster.oldestEnded s.records.list).map fun r =>
    ({ s with records := s.records.erase r.id, evictions := s.evictions + 1 },
      [⟨.debug, "Evicting terminal session " ++ r.id ++ " to make room"⟩])

/-- Take a record in, without looking for room. -/
def insert (s : Store) (r : Record) : Store :=
  { s with records := s.records.put r, created := s.created + 1 }

def create (s : Store) (r : Record) : Except Fault (Store × List LogLine) :=
  if s.contains r.id then .error (Fault.duplicate r.id)
  else if s.isFull then
    match s.evict? with
    | none => .error (Fault.storeFull s.limit)
    | some (s', lines) => .ok (s'.insert r, lines)
  else .ok (s.insert r, [])

/-- The fault of a stored record that a live copy would bring back. -/
def revivalFault? (stored copy : Record) : Option Fault :=
  if copy.isTerminal then none else stored.endFault?

def update (s : Store) (r : Record) : Except Fault Store :=
  match s.read r.id with
  | none => .error (.unknown r.id)
  | some stored =>
    match revivalFault? stored r with
    | some f => .error f
    | none => .ok { s with records := s.records.put r, updates := s.updates + 1 }

/-- Drop a record; says whether it was there. -/
def remove (s : Store) (id : Id) : Bool × Store :=
  if s.contains id then
    (true, { s with records := s.records.erase id, removed := s.removed + 1 })
  else (false, s)

/-- Drop every record that ended; says how many there were. -/
def purge (s : Store) : Nat × Store :=
  let kept := s.records.filter (!·.isTerminal)
  let n := s.size - kept.size
  (n, { s with records := kept, removed := s.removed + n })

def setLimit (s : Store) (n : Nat) : Store := { s with limit := n }

def isPersistent (s : Store) : Bool := s.file != []

def metrics (s : Store) : List (String × Text) :=
  [("total_sessions", Text.decimal s.size),
   ("sessions_created", Text.decimal s.created),
   ("sessions_removed", Text.decimal s.removed),
   ("updates", Text.decimal s.updates),
   ("evictions", Text.decimal s.evictions),
   ("max_sessions", Text.decimal s.limit),
   ("persistence_enabled", if s.isPersistent then "true" else "false")] ++
  if s.isPersistent then [("persistence_file", s.file)] else []

end Store
end Sessions
