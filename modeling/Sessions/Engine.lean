import Sessions.Engine.Background
import Sessions.Factory
import Sessions.Handle
import Sessions.Store

/-!
# Sessions.Engine

The whole: a manager with its clock, its supply of ids, its store, its listeners, its background
and the handles that clients hold. `Engine.new` puts one together from settings; the modules under
`Engine` say what can be asked of it and how it answers.

The store may be disturbed: updates of some sessions, creation and listing can be made to fail, and
hooks carry out commands in the middle of the manager's use of the store. `Disturbance.calm` is a
store without disturbance.
-/

namespace Sessions

structure Disturbance where
  /-- Sessions whose updates fail. -/
  poisoned : List Id
  createFails : Bool
  listFails : Bool
  hooks : List Engine.Hook

namespace Disturbance

def calm : Disturbance := ⟨[], false, false, []⟩

def fault (operation : Text) : Fault := .store .storeError operation "disk unavailable"

def guard (failing : Bool) (operation : Text) : Except Fault Unit :=
  if failing then .error (fault operation) else .ok ()

/-- The hooks that are due with a use of the store. -/
def due (d : Disturbance) (p : Engine.Point) : List Engine.Hook :=
  d.hooks.filter fun h => h.point = p ∧ h.remaining = 1

/-- The hooks behind a use of the store: those that were due are gone, the others of the place have
come closer. -/
def pass (d : Disturbance) (p : Engine.Point) : Disturbance :=
  { d with hooks := (d.hooks.filter fun h => ¬(h.point = p ∧ h.remaining = 1)).map fun h =>
      if h.point = p then { h with remaining := h.remaining - 1 } else h }

end Disturbance

def Engine.Stats.zero : Engine.Stats := ⟨0, 0, 0, 0, some 0⟩

def Engine.Stats.bump (s : Engine.Stats) : Manager.Counter → Engine.Stats
  | .started => { s with started := s.started + 1 }
  | .stopped => { s with stopped := s.stopped + 1 }
  | .expired => { s with expired := s.expired + 1 }
  | .replaced => { s with replaced := s.replaced + 1 }
  | .sweeps => { s with sweeps := s.sweeps.map (· + 1) }

inductive Engine.Entry where
  /-- The records of the store became these. -/
  | stored (s : Roster)
  /-- An announcement began. -/
  | told (ev : Event) (r : Record)

structure Engine where
  clock : Clock
  /-- Where ids come from, and how many were drawn. -/
  source : IdSource
  drawn : Nat
  /-- Sessions that came into being, in order. -/
  known : List Id
  store : Store
  disturbance : Disturbance
  admission : Admission
  timeout : Millis
  autoCreate : Bool
  background : Background
  stats : Engine.Stats
  registry : Registry Engine.Command Engine.Reply
  /-- Every change of the store and every announcement, in the order in which they began. -/
  journal : List Engine.Entry
  /-- The session that the innermost listener is being told about. -/
  subject : Option Id
  handles : List (Text × Handle)
  log : Log

namespace Engine

/-- An engine that did nothing yet. -/
def blank (s : Settings) (clock : Clock) (source : IdSource) (level : Level) : Engine where
  clock := clock
  source := source
  drawn := 0
  known := []
  store := Store.new s.store
  disturbance := .calm
  admission := { Admission.lenient with requireHost := s.life.requireHost }
  timeout := s.life.timeout
  autoCreate := s.life.autoCreate
  background := Background.new s.life.interval s.life.sweeping
  stats := .zero
  registry := Registry.empty
  journal := []
  subject := none
  handles := []
  log := Log.new level

def new (s : Settings) (clock : Clock) (source : IdSource) (level : Level) : Except Fault Engine :=
  s.check.map fun _ => blank s clock source level

def resolve (e : Engine) : Ref → Id
  | .id i => i
  | .started n otherwise => if n = 0 then otherwise else (e.known[n - 1]?).getD otherwise
  | .subject otherwise => e.subject.getD otherwise

def note (e : Engine) (level : Level) (message : Text) : Engine :=
  { e with log := e.log.write level message }

def noteAll (e : Engine) (lines : List LogLine) : Engine := { e with log := e.log.writeAll lines }

def withBackground (e : Engine) (b : Background) (lines : List LogLine) : Engine :=
  { e with background := b }.noteAll lines

def draw (e : Engine) : Id × Engine :=
  (Id.ofWords (e.source e.drawn), { e with drawn := e.drawn + 1 })

def enter (e : Engine) (entry : Entry) : Engine := { e with journal := e.journal ++ [entry] }

def keep (e : Engine) (store : Store) : Engine := { e with store }.enter (.stored store.records)

/-! ## The store as it is -/

def createNow (e : Engine) (r : Record) : Except Fault Unit × Engine :=
  match Disturbance.guard e.disturbance.createFails "create" with
  | .error f => (.error f, e)
  | .ok _ =>
    match e.store.create r with
    | .error f => (.error f, e)
    | .ok (store, lines) =>
      (.ok (), ({ e with known := e.known ++ [r.id] }.keep store).noteAll lines)

def updateNow (e : Engine) (r : Record) : Except Fault Unit × Engine :=
  match Disturbance.guard (e.disturbance.poisoned.contains r.id) "update" with
  | .error f => (.error f, e)
  | .ok _ =>
    match e.store.update r with
    | .error f => (.error f, e)
    | .ok store => (.ok (), e.keep store)

def listNow (e : Engine) : Except Fault (List Record) :=
  (Disturbance.guard e.disturbance.listFails "list").map fun _ => e.store.live

/-- An operation on the store past the manager. -/
def performStore (e : Engine) : StoreCommand → Except Fault Reply × Engine
  | .read r => (.ok (.record (e.store.read (e.resolve r))), e)
  | .list => (.ok (.records e.store.live), e)
  | .size => (.ok (.answer (.count e.store.size)), e)
  | .purge =>
    let (n, store) := e.store.purge
    (.ok (.answer (.count n)), e.keep store)
  | .setLimit n => (.ok (.answer .done), { e with store := e.store.setLimit n })
  | .metrics => (.ok (.metrics e.store.metrics), e)
  | .change r ops =>
    match e.store.read (e.resolve r) with
    | none => (.ok (.outcomes none), e)
    | some stored =>
      let (os, changed) := stored.performAll ops
      match e.store.update changed with
      | .error f => (.error f, e)
      | .ok store => (.ok (.outcomes (some os)), e.keep store)
  | .put d =>
    match d.build.bind e.store.create with
    | .error f => (.error f, e)
    | .ok (store, lines) => (.ok (.answer .done), (e.keep store).noteAll lines)
  | .remove r =>
    let (there, store) := e.store.remove (e.resolve r)
    (.ok (.answer (.flag there)), e.keep store)

end Engine
end Sessions
