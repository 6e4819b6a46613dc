import Sessions.Clock
import Sessions.Host
import Sessions.Record

/-!
# Sessions.Factory

How sessions come into being: who may start one, and which id it gets.

* `Admission.check` applies the policy on hosts, in order: a given host must be an address, a
  missing one must be allowed, the filter must agree.
* `Id.ofWords` spells 128 random bits; an `IdSource` is a supply of them.
* `Factory.create` makes the record of a new session, if its host may start one.
-/

namespace Sessions

structure Admission where
  requireHost : Bool
  /-- Agrees to a host, or to none. -/
  filter : Option (Option Text → Bool)

namespace Admission

/-- Everybody with a well-formed address, or without any. -/
def lenient : Admission := ⟨false, none⟩

/-- Whether the filter agrees; no filter agrees to everything. -/
def passes (a : Admission) (host : Option Text) : Bool :=
  match a.filter with
  | none => true
  | some p => p host

def check (a : Admission) (host : Option Text) : Except Fault Unit :=
  match host with
  | some h =>
    if Host.accepts h then
      if a.passes host then .ok () else .error (.hostRefused h)
    else .error (Fault.hostMalformed h)
  | none =>
    if a.requireHost then .error Fault.hostMissing
    else if a.passes host then .ok () else .error (.hostRefused [])

/-- A filter that wants a host to begin with one of the given texts. -/
def startsWith (fronts : List Text) (missing : Bool) : Option Text → Bool
  | none => missing
  | some h => fronts.any (·.isPrefixOf h)

end Admission

/-- Pairs of random words, in the order in which they are drawn. -/
abbrev IdSource := Nat → UInt64 × UInt64

namespace Id

def mark : Text := "sess_"

/-- The id that two words spell, sixteen hexadecimal digits each. -/
def ofWords (w : UInt64 × UInt64) : Id :=
  mark ++ Text.hexadecimal 16 w.1.toNat ++ Text.hexadecimal 16 w.2.toNat

def isGenerated (id : Id) : Bool :=
  mark.isPrefixOf id && id.length == mark.length + 32 &&
    (id.drop mark.length).all fun b => Text.isDigit b || (Text.byte 'a' ≤ b && b ≤ Text.byte 'f')

def generate (source : IdSource) (count : Nat) : List Id :=
  (List.range count).map fun n => ofWords (source n)

end Id

structure Factory where
  admission : Admission
  clock : Clock
  source : IdSource
  /-- Ids that were drawn from the source. -/
  drawn : Nat

namespace Factory

def new (clock : Clock) (source : IdSource) : Factory := ⟨.lenient, clock, source, 0⟩

/-- The record of a new session. A refused host draws no id. -/
def create (f : Factory) (host : Option Text) (timeout : Millis) : Except Fault Record × Factory :=
  match f.admission.check host with
  | .error e => (.error e, f)
  | .ok _ =>
    (.ok (Record.new (Id.ofWords (f.source f.drawn)) f.clock.now host timeout),
      { f with clock := f.clock.read.2, drawn := f.drawn + 1 })

def setClock (f : Factory) (t : Timestamp) : Factory := { f with clock := f.clock.setTo t }

def setRequireHost (f : Factory) (on : Bool) : Factory :=
  { f with admission := { f.admission with requireHost := on } }

def setFilter (f : Factory) (filter : Option (Option Text → Bool)) : Factory :=
  { f with admission := { f.admission with filter } }

end Factory
end Sessions
