import Sessions.Record.Draft
import Sessions.Store.Persistence

/-!
# Sessions.Store.Desk

A store with the files around it and the copies of records that its user holds. A copy is read from
the store, changed on its own, and written back; the store decides whether it takes it.

`Desk.openWith` is the store as its settings describe it, `Desk.perform` one step of work.
-/

namespace Sessions

structure Desk where
  policy : StorePolicy
  codec : Codec
  store : Store
  files : Files
  /-- Copies by the name of their place; nothing where a read found nothing. -/
  copies : List (Text × Option Record)
  log : Log

namespace Desk

def openWith (policy : StorePolicy) (codec : Codec) (files : Files) (level : Level) : Desk :=
  let (store, lines) := Store.openWith policy codec files
  { policy, codec, store, files, copies := [], log := (Log.new level).writeAll lines }

inductive Source where
  | draft (d : Draft)
  | copy (place : Text)
deriving DecidableEq, Repr

inductive Command where
  | create (source : Source)
  /-- Read a record and keep a copy, if a place is given. -/
  | read (id : Id) (place : Option Text)
  | change (place : Text) (op : Record.Op)
  | update (source : Source)
  | remove (id : Id)
  | contains (id : Id)
  | list
  | purge
  | metrics
  | setLimit (n : Nat)
  | isPersistent
  | save
  | load
  | putFile (path text : Text)
  | fileText (path : Text)
  | deleteFile (path : Text)
  | reopen
deriving DecidableEq, Repr

inductive Reply where
  | done
  | answer (a : Record.Answer)
  | record (r : Option Record)
  | records (rs : List Record)
  | flag (b : Bool)
  | count (n : Nat)
  | metrics (m : List (String × Text))
  | text (t : Option Text)

def copy? (d : Desk) (place : Text) : Option Record := (d.copies.lookup place).join

def hold (d : Desk) (place : Text) (r : Option Record) : Desk :=
  { d with copies := (place, r) :: d.copies.filter (·.1 ≠ place) }

/-- The fault of a step that needs a copy where there is none. -/
def nothingHeld : Fault := Fault.missing "slot" "There is no record at this place"

def find (d : Desk) : Source → Except Fault Record
  | .draft d => d.build
  | .copy place =>
    match d.copy? place with
    | some r => .ok r
    | none => .error nothingHeld

def noteAll (d : Desk) (lines : List LogLine) : Desk := { d with log := d.log.writeAll lines }

def create (d : Desk) (source : Source) : Except Fault Desk := do
  let (store, lines) ← d.store.create (← d.find source)
  return { d with store }.noteAll lines

def update (d : Desk) (source : Source) : Except Fault Desk := do
  let store ← d.store.update (← d.find source)
  return { d with store }

def save (d : Desk) : Except Fault Desk := do
  let (files, lines) ← d.store.save d.codec d.files
  return { d with files }.noteAll lines

/-- Close the store, which may save it, and open it again. -/
def reopen (d : Desk) : Desk :=
  let (files, closing) := d.store.close d.codec d.files
  let (store, opening) := Store.openWith d.policy d.codec files
  { d with store, files }.noteAll (closing ++ opening)

/-- A step that has no result, or a failure that changes nothing. -/
def settle (d : Desk) : Except Fault Desk → Except Fault Reply × Desk
  | .ok d' => (.ok .done, d')
  | .error f => (.error f, d)

def perform (d : Desk) : Command → Except Fault Reply × Desk
  | .create source => d.settle (d.create source)
  | .read id place =>
    let r := d.store.read id
    (.ok (.record r), match place with
      | some p => d.hold p r
      | none => d)
  | .change place op =>
    match d.copy? place with
    | none => (.error nothingHeld, d)
    | some r =>
      let (a, r) := r.perform op
      (a.map .answer, d.hold place (some r))
  | .update source => d.settle (d.update source)
  | .remove id =>
    let (there, store) := d.store.remove id
    (.ok (.flag there), { d with store })
  | .contains id => (.ok (.flag (d.store.contains id)), d)
  | .list => (.ok (.records d.store.live), d)
  | .purge =>
    let (n, store) := d.store.purge
    (.ok (.count n), { d with store })
  | .metrics => (.ok (.metrics d.store.metrics), d)
  | .setLimit n => (.ok .done, { d with store := d.store.setLimit n })
  | .isPersistent => (.ok (.flag d.store.isPersistent), d)
  | .save => d.settle d.save
  | .load =>
    let (n, store, lines) := d.store.load d.codec d.files
    (.ok (.count n), { d with store }.noteAll lines)
  | .putFile path text =>
    (.ok .done, { d with files := d.files.put path text })
  | .fileText path => (.ok (.text (d.files.read? path)), d)
  | .deleteFile path => (.ok .done, { d with files := d.files.delete path })
  | .reopen => (.ok .done, d.reopen)

end Desk
end Sessions
