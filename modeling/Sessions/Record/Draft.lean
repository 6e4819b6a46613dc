import Sessions.Record

/-!
# Sessions.Record.Draft

A record described by how it begins and by what is done to it before anybody uses it. A draft is all
or nothing: where one operation fails there is no record, and the failure says why.

`Record.applyAll` carries operations out up to the first failure, `Draft.build` makes the record.
-/

namespace Sessions

namespace Record

/-- Operations one after the other; the first failure ends it. -/
def applyAll (r : Record) : List Op → Except Fault Record
  | [] => .ok r
  | op :: ops =>
    match r.apply op with
    | .ok (_, r') => r'.applyAll ops
    | .error f => .error f

end Record

structure Draft where
  fresh : Record
  ops : List Record.Op
deriving DecidableEq, Repr

namespace Draft

/-- The record that a draft describes. -/
def build (d : Draft) : Except Fault Record := d.fresh.applyAll d.ops

end Draft
end Sessions
