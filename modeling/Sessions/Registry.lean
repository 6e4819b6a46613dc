import Sessions.Log
import Sessions.Record

/-!
# Sessions.Registry

Listeners and the registry that tells them about sessions. A listener reacts to an event with
actions of its own and may fail; what an action is and what it answers is left open, so listeners
may act on the registry itself or on whatever it is part of.

A registry announces an event to the listeners that are registered when the announcement begins, in
the order of their registration. A listener that fails is logged and the rest are told all the same.

* `Stage` is what an announcement needs of the state it happens in: where the registry is, where the
  log is, how an action is carried out.
* `Stage.announce` is the announcement.
-/

namespace Sessions

inductive Event where
  | start
  | stop
  | expiration
deriving DecidableEq, Repr

def Event.name : Event → Text
  | .start => "start"
  | .stop => "stop"
  | .expiration => "expiration"

/-- What a listener does when it is told something: actions in order, then perhaps a failure. -/
structure Reaction (A : Type) where
  actions : List A
  failure : Option Text

/-- A listener. Its reaction may depend on how often it was told the same kind of event before. -/
structure Listener (A : Type) where
  name : Text
  hears : Event → Bool
  react : Event → Nat → Reaction A

/-- One entry of a listener's script: an action, or the failure that ends the callback. -/
inductive Cue (A : Type) where
  | act (a : A)
  | fail (text : Text)

namespace Reaction

variable {A : Type}

def none : Reaction A := ⟨[], .none⟩

/-- The reaction that a list of cues describes. Nothing behind a failure is reached. -/
def ofCues : List (Cue A) → Reaction A
  | [] => none
  | .fail text :: _ => ⟨[], some text⟩
  | .act a :: cs => { ofCues cs with actions := a :: (ofCues cs).actions }

end Reaction

/-- A listener that follows a script the first few times it is told an event. -/
def Listener.scripted {A : Type} (name : Text) (hears : Event → Bool)
    (script : Event → List (Cue A)) (times : Nat) : Listener A :=
  { name, hears
    react := fun e n => if n < times then Reaction.ofCues (script e) else Reaction.none }

/-- How deep callbacks nest inside of callbacks; a deeper one would do nothing. -/
def nestingLimit : Nat := 100000

/-- Listeners are told apart by number, not by name. -/
abbrev ListenerId := Nat

/-- A listener and how often it was told each event. -/
structure Ear (A : Type) where
  listener : Listener A
  told : Event → Nat

/-- One event told to one listener, with the outcomes of the listener's actions. -/
structure Delivery (R : Type) where
  listener : Text
  event : Event
  session : Record
  outcomes : List (Except Fault R)

/-- Every listener that was ever made, those that are registered, and what they were told. -/
structure Registry (A R : Type) where
  ears : List (Ear A)
  registered : List ListenerId
  deliveries : List (Delivery R)

namespace Registry

variable {A R : Type}

def empty : Registry A R := ⟨[], [], []⟩

def introduce (g : Registry A R) (l : Listener A) : ListenerId × Registry A R :=
  (g.ears.length, { g with ears := g.ears ++ [⟨l, fun _ => 0⟩] })

def named? (g : Registry A R) (name : Text) : Option ListenerId :=
  (List.range g.ears.length).reverse.find? fun i =>
    (g.ears[i]?.map fun e => e.listener.name) == some name

/-- Register a listener behind the others. There has to be one. -/
def add (g : Registry A R) : Option ListenerId → Except Fault (Registry A R)
  | none => .error (Fault.missing "listener" "Listener cannot be null")
  | some i => .ok { g with registered := g.registered ++ [i] }

/-- Drop the first registration of a listener; says whether there was one. -/
def remove (g : Registry A R) : Option ListenerId → Bool × Registry A R
  | none => (false, g)
  | some i => (g.registered.contains i, { g with registered := g.registered.erase i })

/-- Register these listeners instead; those that are missing are left out. -/
def set (g : Registry A R) (is : List (Option ListenerId)) : Registry A R :=
  { g with registered := is.filterMap id }

def clear (g : Registry A R) : Registry A R := { g with registered := [] }

def size (g : Registry A R) : Nat := g.registered.length

def names (g : Registry A R) : List Text :=
  g.registered.filterMap fun i => g.ears[i]?.map fun e => e.listener.name

/-- Note that a listener is told an event once more. -/
def hear (g : Registry A R) (i : ListenerId) (e : Event) : Registry A R :=
  { g with ears := g.ears.modify i fun ear =>
      { ear with told := fun e' => if e' = e then ear.told e' + 1 else ear.told e' } }

def beginDelivery (g : Registry A R) (name : Text) (e : Event) (r : Record) : Registry A R :=
  { g with deliveries := g.deliveries ++ [⟨name, e, r, []⟩] }

/-- Note what an action answered, in the delivery of the given number. -/
def noteOutcome (g : Registry A R) (delivery : Nat) (o : Except Fault R) : Registry A R :=
  { g with deliveries := g.deliveries.modify delivery fun d =>
      { d with outcomes := d.outcomes ++ [o] } }

end Registry

/-- What an announcement needs of the state that it happens in. -/
structure Stage (W A R : Type) where
  registry : W → Registry A R
  setRegistry : Registry A R → W → W
  note : Level → Text → W → W
  /-- Carry out an action of a listener that was told about a session. -/
  act : Record → A → W → Except Fault R × W

namespace Stage

variable {W A R : Type} (st : Stage W A R)

def update (f : Registry A R → Registry A R) (w : W) : W := st.setRegistry (f (st.registry w)) w

/-- Carry out the actions of a reaction, noting their outcomes. -/
def actAll (r : Record) (delivery : Nat) : List A → W → W
  | [], w => w
  | a :: as, w =>
    let (o, w) := st.act r a w
    actAll r delivery as (st.update (·.noteOutcome delivery o) w)

def failureText (e : Event) (r : Record) (words : Text) : Text :=
  "Session listener failed on " ++ e.name ++ " of session " ++ r.id ++ ": " ++ words.untilNul

def tell (e : Event) (r : Record) (i : ListenerId) (w : W) : W :=
  match (st.registry w).ears[i]? with
  | none => w
  | some ear =>
    if ear.listener.hears e then
      let delivery := (st.registry w).deliveries.length
      let reaction := ear.listener.react e (ear.told e)
      let w := st.update (fun g => (g.hear i e).beginDelivery ear.listener.name e r) w
      let w := st.actAll r delivery reaction.actions w
      match reaction.failure with
      | none => w
      | some words => st.note .error (failureText e r words) w
    else w

def tellAll (e : Event) (r : Record) : List ListenerId → W → W
  | [], w => w
  | i :: is, w => tellAll e r is (st.tell e r i w)

/-- Announce an event about a session to those who are registered now. -/
def announce (e : Event) (r : Record) (w : W) : W :=
  st.tellAll e r (st.registry w).registered w

end Stage
end Sessions
