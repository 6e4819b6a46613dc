import Mathlib.Data.List.Basic
import Sessions.Registry.Scene

/-!
# Sessions.Proofs.Registry.Delivery

What becomes of an announcement when the listeners change the registry that it comes from, change the
session that it is about, announce in their turn, and fail.

A run is told twice. `Scene.perform` carries it out; `Scene.account` goes the same way and only writes down
what is done, as a tree: an announcement has its calls, one behind the other, and a call has what is done
during it. The tree says nothing about who is registered or what the session looks like; that is in the
`Room`, which its steps change in the order in which they are taken.

* `Call.AllFit`: wherever an announcement stands in the tree, its calls are for those who were registered
  then, and it is about the session as it was then.
* `Explains s hs s'`: what is written down fits, and leads from one scene to the other.
* `Explains.announce`: if the account of what listeners ask for explains what it does, so does the account
  of an announcement.
* `announcement_reaches_audience`: however deep callbacks nest.
-/

namespace Sessions

namespace Registry

variable {A R : Type}

/-- A change of the list of those who are registered. -/
inductive Edit where
  | add (i : ListenerId)
  | remove (i : ListenerId)
  | set (is : List ListenerId)
  | clear
deriving DecidableEq, Repr

def Edit.apply : Edit → List ListenerId → List ListenerId
  | .add i, l => l ++ [i]
  | .remove i, l => l.erase i
  | .set is, _ => is
  | .clear, _ => []

theorem Edit.apply_remove {i : ListenerId} {l : List ListenerId} (h : i ∈ l) :
    ∃ front back, l = front ++ i :: back ∧ i ∉ front ∧
      (Edit.remove i).apply l = front ++ back := by
  obtain ⟨front, back, hfront, hl, herase⟩ := List.exists_erase_eq h
  exact ⟨front, back, hl, hfront, herase⟩

/-- The listeners that were ever made. -/
def listeners (g : Registry A R) : List (Listener A) := g.ears.map (·.listener)

/-- Whom which event was told about which session, in the order in which it was begun. -/
def tellings (g : Registry A R) : List (Text × Event × Record) :=
  g.deliveries.map fun d => (d.listener, d.event, d.session)

/-- Nobody is registered who was never made. -/
def Sound (g : Registry A R) : Prop := ∀ i ∈ g.registered, i < g.listeners.length

instance (g : Registry A R) : Decidable g.Sound :=
  inferInstanceAs (Decidable (∀ i ∈ g.registered, i < g.listeners.length))

theorem listeners_hear (g : Registry A R) (i : ListenerId) (ev : Event) :
    (g.hear i ev).listeners = g.listeners := by
  refine List.ext_getElem? fun j => ?_
  simp only [listeners, hear, List.getElem?_map, List.getElem?_modify]
  split <;> cases g.ears[j]? <;> rfl

theorem tellings_noteOutcome (g : Registry A R) (delivery : Nat) (o : Except Fault R) :
    (g.noteOutcome delivery o).tellings = g.tellings := by
  refine List.ext_getElem? fun j => ?_
  simp only [tellings, noteOutcome, List.getElem?_map, List.getElem?_modify]
  split <;> cases g.deliveries[j]? <;> rfl

theorem listeners_of_ear {g : Registry A R} {i : ListenerId} {ear : Ear A} (h : g.ears[i]? = some ear) :
    g.listeners[i]? = some ear.listener := by
  rw [listeners, List.getElem?_map, h]
  rfl

theorem exists_ear {g : Registry A R} {i : ListenerId} {x : Listener A} (h : g.listeners[i]? = some x) :
    ∃ ear, g.ears[i]? = some ear ∧ ear.listener = x :=
  Option.map_eq_some_iff.1 (List.getElem?_map ▸ h)

theorem lt_of_named? {g : Registry A R} {name : Text} {i : ListenerId}
    (h : g.named? name = some i) : i < g.listeners.length := by
  have hrange : i ∈ (List.range g.ears.length).reverse := List.mem_of_find?_eq_some h
  rw [List.mem_reverse, List.mem_range] at hrange
  rwa [listeners, List.length_map]

end Registry

namespace Scene

open Registry (Edit)

/-! ## Accounts -/

mutual

/-- What is done at a scene, by a command or during a call. -/
inductive Happening where
  | edited (e : Edit)
  | changed (op : Record.Op)
  | announced (ev : Event) (snapshot : Record) (calls : List Call)

/-- A listener is called: what is done until it returns, and its failure if it fails. -/
inductive Call where
  | call (listener : ListenerId) (during : List Happening) (failure : Option Text)

end

def Call.listener : Call → ListenerId
  | .call i _ _ => i

/-- A tree read from its beginning to its end: a call stands before all that is done during it, and its
failure behind. -/
inductive Step where
  | edit (e : Edit)
  | change (op : Record.Op)
  | tell (i : ListenerId) (ev : Event) (snapshot : Record)
  | fail (ev : Event) (snapshot : Record) (words : Text)

mutual

def Happening.steps : Happening → List Step
  | .edited e => [.edit e]
  | .changed op => [.change op]
  | .announced ev snapshot calls => Call.stepsOf ev snapshot calls

def Happening.stepsOf : List Happening → List Step
  | [] => []
  | h :: hs => h.steps ++ Happening.stepsOf hs

def Call.stepsOf (ev : Event) (snapshot : Record) : List Call → List Step
  | [] => []
  | .call i during failure :: cs =>
    .tell i ev snapshot :: Happening.stepsOf during ++
      ((failure.map (Step.fail ev snapshot)).toList ++ Call.stepsOf ev snapshot cs)

end

def Step.edit? : Step → Option Edit
  | .edit e => some e
  | _ => none

def Step.tell? : Step → Option (ListenerId × Event × Record)
  | .tell i ev snapshot => some (i, ev, snapshot)
  | _ => none

/-- The line that the failure of a callback leaves in the log. -/
def Step.complaint? : Step → Option Text
  | .fail ev snapshot words => some (Stage.failureText ev snapshot words)
  | _ => none

/-- Who is registered, and the session that announcements are about. -/
structure Room where
  registered : List ListenerId
  session : Record

namespace Room

def step (m : Room) : Step → Room
  | .edit e => { m with registered := e.apply m.registered }
  | .change op => { m with session := (m.session.perform op).2 }
  | .tell .. => m
  | .fail .. => m

def after (m : Room) (l : List Step) : Room := l.foldl step m

theorem after_append (m : Room) (l l' : List Step) : m.after (l ++ l') = (m.after l).after l' :=
  List.foldl_append

/-- Who is registered is up to the edits alone, in their order. -/
theorem registered_after (m : Room) (l : List Step) :
    (m.after l).registered =
      (l.filterMap Step.edit?).foldl (fun is e => e.apply is) m.registered := by
  induction l generalizing m with
  | nil => rfl
  | cons s l ih => cases s <;> exact ih _

end Room

mutual

/-- An announcement that is made in a room is about its session as it is, and its calls are for those who
are registered, in their order. -/
def Happening.Fits : Happening → Room → Prop
  | .edited _, _ => True
  | .changed _, _ => True
  | .announced _ snapshot calls, m =>
    snapshot = m.session ∧ calls.map Call.listener = m.registered ∧ Call.AllFit calls m

def Happening.AllFit : List Happening → Room → Prop
  | [], _ => True
  | h :: hs, m => h.Fits m ∧ Happening.AllFit hs (m.after h.steps)

def Call.AllFit : List Call → Room → Prop
  | [], _ => True
  | .call _ during _ :: cs, m =>
    Happening.AllFit during m ∧ Call.AllFit cs (m.after (Happening.stepsOf during))

end

namespace Happening

theorem stepsOf_append (hs hs' : List Happening) : stepsOf (hs ++ hs') = stepsOf hs ++ stepsOf hs' := by
  induction hs with
  | nil => rfl
  | cons h hs ih => simp only [List.cons_append, stepsOf, ih, List.append_assoc]

theorem allFit_append {hs hs' : List Happening} {m : Room} (h : AllFit hs m)
    (h' : AllFit hs' (m.after (stepsOf hs))) : AllFit (hs ++ hs') m := by
  induction hs generalizing m with
  | nil => exact h'
  | cons x hs ih =>
    rw [stepsOf, Room.after_append] at h'
    exact ⟨h.1, ih h.2 h'⟩

end Happening

def room (s : Scene) : Room := ⟨s.registry.registered, s.session⟩

variable (act : Command → Scene → Except Fault Reply × Scene)
  (acct : Command → Scene → List Happening)

/-- What is done by the actions of a reaction, given what is done by each. -/
def accountAll (delivery : Nat) : List Command → Scene → List Happening
  | [], _ => []
  | c :: cs, s =>
    acct c s ++ accountAll delivery cs
      ((stage act).update (·.noteOutcome delivery (act c s).1) (act c s).2)

/-- How a listener is called. Nothing is done by one who does not hear the event. -/
def accountTell (ev : Event) (r : Record) (i : ListenerId) (s : Scene) : Call :=
  match s.registry.ears[i]? with
  | none => .call i [] none
  | some ear =>
    if ear.listener.hears ev then
      let reaction := ear.listener.react ev (ear.told ev)
      .call i (accountAll act acct s.registry.deliveries.length reaction.actions
        ((stage act).update (fun g => (g.hear i ev).beginDelivery ear.listener.name ev r) s))
        reaction.failure
    else .call i [] none

def accountTellAll (ev : Event) (r : Record) : List ListenerId → Scene → List Call
  | [], _ => []
  | i :: is, s => accountTell act acct ev r i s :: accountTellAll ev r is ((stage act).tell ev r i s)

/-- What is done by a command, given what is done by the actions of listeners. -/
def accountWith : Command → Scene → List Happening
  | .define _, _ => []
  | .add name, s => ((s.find name).map (Happening.edited ∘ .add)).toList
  | .remove name, s => ((s.find name).map (Happening.edited ∘ .remove)).toList
  | .set names, s => [.edited (.set (names.filterMap s.find))]
  | .size, _ => []
  | .list, _ => []
  | .clear, _ => [.edited .clear]
  | .announce ev, s =>
    [.announced ev s.session (accountTellAll act acct ev s.session s.registry.registered s)]
  | .session op, _ => [.changed op]

/-- What is done by a command, with callbacks nested up to a depth. -/
def account : (depth : Nat) → Command → Scene → List Happening
  | 0, c, s => accountWith (fun _ s => (.ok .done, s)) (fun _ _ => []) c s
  | n + 1, c, s => accountWith (perform n) (account n) c s

variable {act acct} {s s' s'' : Scene} {l l' : List Step} {hs hs' : List Happening}

/-! ## What an account explains -/

/-- What becomes of a call in the registry: nothing if the listener does not hear the event. -/
def audible (s : Scene) : ListenerId × Event × Record → Option (Text × Event × Record)
  | (i, ev, r) => (s.registry.listeners[i]?.filter (·.hears ev)).map fun l => (l.name, ev, r)

/-- The steps take one scene to the other: to who is registered and what the session looks like, to what
was told to whom, and to what is in the log. -/
structure Takes (s : Scene) (l : List Step) (s' : Scene) : Prop where
  sound : s'.registry.Sound
  listeners : s.registry.listeners <+: s'.registry.listeners
  room : s'.room = s.room.after l
  known : ∀ t ∈ l.filterMap Step.tell?, t.1 < s'.registry.listeners.length
  tellings : s'.registry.tellings =
    s.registry.tellings ++ (l.filterMap Step.tell?).filterMap s'.audible
  log : s'.log = (l.filterMap Step.complaint?).foldl (·.write .error ·) s.log

theorem audible_of_prefix (h : s.registry.listeners <+: s'.registry.listeners)
    {t : ListenerId × Event × Record} (ht : t.1 < s.registry.listeners.length) :
    s'.audible t = s.audible t := by
  obtain ⟨more, hmore⟩ := h
  obtain ⟨i, ev, r⟩ := t
  rw [audible, audible, ← hmore, List.getElem?_append_left ht]

namespace Takes

theorem refl (hsound : s.registry.Sound) : Takes s [] s where
  sound := hsound
  listeners := List.prefix_rfl
  room := rfl
  known _ h := absurd h List.not_mem_nil
  tellings := (List.append_nil _).symm
  log := rfl

theorem trans (h : Takes s l s') (h' : Takes s' l' s'') : Takes s (l ++ l') s'' where
  sound := h'.sound
  listeners := h.listeners.trans h'.listeners
  room := by rw [Room.after_append, ← h.room, h'.room]
  known t ht := by
    rw [List.filterMap_append, List.mem_append] at ht
    rcases ht with ht | ht
    · exact Nat.lt_of_lt_of_le (h.known t ht) h'.listeners.length_le
    · exact h'.known t ht
  tellings := by
    have hstay : (l.filterMap Step.tell?).filterMap s''.audible =
        (l.filterMap Step.tell?).filterMap s'.audible :=
      List.filterMap_congr fun t ht => audible_of_prefix h'.listeners (h.known t ht)
    rw [h'.tellings, h.tellings, List.filterMap_append, List.filterMap_append, hstay,
      List.append_assoc]
  log := by rw [List.filterMap_append, List.foldl_append, ← h.log, h'.log]

/-- Steps of which none is a call, and which leave alone what listeners were told. -/
theorem silent (hsound : s'.registry.Sound)
    (hlisteners : s.registry.listeners <+: s'.registry.listeners) (hroom : s'.room = s.room.after l)
    (hsilent : l.filterMap Step.tell? = []) (htellings : s'.registry.tellings = s.registry.tellings)
    (hlog : s'.log = (l.filterMap Step.complaint?).foldl (·.write .error ·) s.log) :
    Takes s l s' where
  sound := hsound
  listeners := hlisteners
  room := hroom
  known t ht := by
    rw [hsilent] at ht
    exact absurd ht List.not_mem_nil
  tellings := by rw [htellings, hsilent, List.filterMap_nil, List.append_nil]
  log := hlog

variable (act) in
theorem noteOutcome (hsound : s.registry.Sound) (delivery : Nat) (o : Except Fault Reply) :
    Takes s [] ((stage act).update (·.noteOutcome delivery o) s) :=
  silent hsound List.prefix_rfl rfl rfl (Registry.tellings_noteOutcome _ _ _) rfl

theorem edit (e : Edit)
    (hsound : ({ s.registry with registered := e.apply s.registry.registered } :
      Registry Command Reply).Sound) :
    Takes s [.edit e]
      { s with registry := { s.registry with registered := e.apply s.registry.registered } } :=
  silent hsound List.prefix_rfl rfl rfl rfl rfl

theorem change (hsound : s.registry.Sound) (op : Record.Op) :
    Takes s [.change op] { s with session := (s.session.perform op).2 } :=
  silent hsound List.prefix_rfl rfl rfl rfl rfl

theorem fail (hsound : s.registry.Sound) (ev : Event) (r : Record) (words : Text) :
    Takes s [.fail ev r words] ((stage act).note .error (Stage.failureText ev r words) s) :=
  silent hsound List.prefix_rfl rfl rfl rfl rfl

theorem define (hsound : s.registry.Sound) (x : Listener Command) :
    Takes s [] { s with registry := (s.registry.introduce x).2 } := by
  have hgrown : s.registry.listeners <+: (s.registry.introduce x).2.listeners :=
    ⟨[x], by simp only [Registry.introduce, Registry.listeners, List.map_append]; rfl⟩
  exact silent (fun i hi => Nat.lt_of_lt_of_le (hsound i hi) hgrown.length_le) hgrown rfl rfl rfl rfl

variable {i : ListenerId} {ear : Ear Command} {ev : Event}

variable (act) in
theorem told (hsound : s.registry.Sound) (hear : s.registry.ears[i]? = some ear)
    (hhears : ear.listener.hears ev = true) (r : Record) :
    Takes s [.tell i ev r]
      ((stage act).update (fun g => (g.hear i ev).beginDelivery ear.listener.name ev r) s) := by
  have hlisteners : ((stage act).update
      (fun g => (g.hear i ev).beginDelivery ear.listener.name ev r) s).registry.listeners =
      s.registry.listeners := s.registry.listeners_hear i ev
  have hget : s.registry.listeners[i]? = some ear.listener := Registry.listeners_of_ear hear
  exact
    { sound := fun j hj => hlisteners ▸ hsound j hj
      listeners := hlisteners ▸ List.prefix_rfl
      room := rfl
      known := fun t ht => by
        obtain rfl := List.mem_singleton.1 ht
        rw [hlisteners]
        exact (List.getElem?_eq_some_iff.1 hget).1
      tellings := by
        have haudible : audible ((stage act).update
            (fun g => (g.hear i ev).beginDelivery ear.listener.name ev r) s) (i, ev, r) =
            some (ear.listener.name, ev, r) := by
          rw [audible, hlisteners, hget]
          simp only [Option.filter, hhears, if_true, Option.map_some]
        simp only [List.filterMap_cons, Step.tell?, haudible, List.filterMap_nil]
        exact List.map_append
      log := rfl }

theorem untold (hsound : s.registry.Sound) (hear : s.registry.ears[i]? = some ear)
    (hhears : ¬ear.listener.hears ev) (r : Record) : Takes s [.tell i ev r] s where
  sound := hsound
  listeners := List.prefix_rfl
  room := rfl
  known t ht := by
    obtain rfl := List.mem_singleton.1 ht
    rw [Registry.listeners, List.length_map]
    exact (List.getElem?_eq_some_iff.1 hear).1
  tellings := by
    have haudible : s.audible (i, ev, r) = none := by
      rw [audible, Registry.listeners_of_ear hear]
      simp only [Option.filter, if_neg hhears, Option.map_none]
    simp only [List.filterMap_cons, Step.tell?, haudible, List.filterMap_nil, List.append_nil]
  log := rfl

end Takes

/-- What is written down fits, and takes one scene to the other. -/
structure Explains (s : Scene) (hs : List Happening) (s' : Scene) : Prop where
  fits : Happening.AllFit hs s.room
  takes : Takes s (Happening.stepsOf hs) s'

namespace Explains

theorem refl (hsound : s.registry.Sound) : Explains s [] s := ⟨trivial, .refl hsound⟩

theorem edited {e : Edit} (h : Takes s [.edit e] s') : Explains s [.edited e] s' :=
  ⟨⟨trivial, trivial⟩, h⟩

/-! ## Announcements -/

variable (hacts : ∀ c s, s.registry.Sound → Explains s (acct c s) (act c s).2)
include hacts

theorem accountAll (r : Record) (delivery : Nat) (cs : List Command) (hsound : s.registry.Sound) :
    Explains s (Scene.accountAll act acct delivery cs s) ((stage act).actAll r delivery cs s) := by
  induction cs generalizing s with
  | nil => exact refl hsound
  | cons c cs ih =>
    have hfirst := hacts c s hsound
    have hnoted := Takes.noteOutcome act hfirst.takes.sound delivery (act c s).1
    have hrest := ih hnoted.sound
    exact ⟨Happening.allFit_append hfirst.fits (hfirst.takes.room ▸ hrest.fits),
      Happening.stepsOf_append _ _ ▸ hfirst.takes.trans (hnoted.trans hrest.takes)⟩

/-- A listener is called: it is told first, what it does is done then, and its failure comes last. -/
theorem accountTell (ev : Event) (r : Record) {i : ListenerId} (hsound : s.registry.Sound)
    (hi : i < s.registry.listeners.length) :
    ∃ during failure, Scene.accountTell act acct ev r i s = .call i during failure ∧
      Happening.AllFit during s.room ∧
      Takes s (.tell i ev r :: Happening.stepsOf during ++ (failure.map (Step.fail ev r)).toList)
        ((stage act).tell ev r i s) := by
  rw [Registry.listeners, List.length_map] at hi
  have hear : s.registry.ears[i]? = some s.registry.ears[i] := List.getElem?_eq_getElem hi
  generalize s.registry.ears[i] = ear at hear
  unfold Scene.accountTell Stage.tell
  have hear' : ((stage act).registry s).ears[i]? = some ear := hear
  rw [hear, hear']
  by_cases hhears : ear.listener.hears ev
  · simp only [if_pos hhears]
    have htold := Takes.told act hsound hear hhears r
    have hdone := accountAll hacts r s.registry.deliveries.length
      (ear.listener.react ev (ear.told ev)).actions htold.sound
    refine ⟨_, _, rfl, htold.room ▸ hdone.fits, ?_⟩
    have hacted := htold.trans hdone.takes
    cases (ear.listener.react ev (ear.told ev)).failure with
    | none => exact (List.append_nil _).symm ▸ hacted
    | some words => exact hacted.trans (Takes.fail hacted.sound ev r words)
  · simp only [if_neg hhears]
    exact ⟨[], none, rfl, trivial, Takes.untold hsound hear hhears r⟩

theorem accountTellAll (ev : Event) (r : Record) (is : List ListenerId) (hsound : s.registry.Sound)
    (his : ∀ i ∈ is, i < s.registry.listeners.length) :
    (Scene.accountTellAll act acct ev r is s).map Call.listener = is ∧
      Call.AllFit (Scene.accountTellAll act acct ev r is s) s.room ∧
      Takes s (Call.stepsOf ev r (Scene.accountTellAll act acct ev r is s))
        ((stage act).tellAll ev r is s) := by
  induction is generalizing s with
  | nil => exact ⟨rfl, trivial, .refl hsound⟩
  | cons i is ih =>
    obtain ⟨during, failure, hcall, hfits, htakes⟩ :=
      accountTell hacts ev r hsound (his i List.mem_cons_self)
    obtain ⟨haudience, hallFit, hrest⟩ := ih htakes.sound fun j hj =>
      Nat.lt_of_lt_of_le (his j (List.mem_cons_of_mem i hj)) htakes.listeners.length_le
    have hroom : ((stage act).tell ev r i s).room = s.room.after (Happening.stepsOf during) := by
      rw [htakes.room, Room.after_append]
      cases failure <;> rfl
    rw [Scene.accountTellAll, hcall]
    refine ⟨?_, ⟨hfits, hroom ▸ hallFit⟩, ?_⟩
    · rw [List.map_cons, haudience]
      rfl
    · rw [Call.stepsOf, ← List.append_assoc]
      exact htakes.trans hrest

theorem announce (ev : Event) (hsound : s.registry.Sound) :
    Explains s (accountWith act acct (.announce ev) s) ((stage act).announce ev s.session s) := by
  obtain ⟨haudience, hfit, htakes⟩ :=
    accountTellAll hacts ev s.session s.registry.registered hsound hsound
  refine ⟨⟨⟨rfl, haudience, hfit⟩, trivial⟩, ?_⟩
  rw [accountWith, Happening.stepsOf, Happening.stepsOf, List.append_nil]
  exact htakes

end Explains

variable (s) in
theorem lt_of_find {name : Option Text} {i : ListenerId} (h : s.find name = some i) :
    i < s.registry.listeners.length := by
  obtain ⟨n, -, hn⟩ := Option.bind_eq_some_iff.1 h
  exact Registry.lt_of_named? hn

/-- The account of a command explains it, if the accounts of what listeners ask for explain that. -/
theorem explains_performWith (hacts : ∀ c s, s.registry.Sound → Explains s (acct c s) (act c s).2)
    (c : Command) (hsound : s.registry.Sound) :
    Explains s (accountWith act acct c s) (performWith act c s).2 := by
  cases c with
  | define x => exact ⟨trivial, .define hsound x⟩
  | add name =>
    rw [accountWith, performWith]
    cases hfind : s.find name with
    | none => exact .refl hsound
    | some i =>
      refine .edited (.edit (.add i) fun j hj => ?_)
      rcases List.mem_append.1 hj with hj | hj
      · exact hsound j hj
      · rw [List.mem_singleton.1 hj]
        exact lt_of_find s hfind
  | remove name =>
    rw [accountWith, performWith]
    cases hfind : s.find name with
    | none => exact .refl hsound
    | some i => exact .edited (.edit (.remove i) fun j hj => hsound j (List.mem_of_mem_erase hj))
  | set names =>
    have hset : names.filterMap s.find = (names.map s.find).filterMap id := by
      rw [List.filterMap_map]
      rfl
    rw [accountWith, hset]
    refine .edited (.edit (.set _) fun j hj => ?_)
    have hfound : j ∈ names.filterMap s.find := hset ▸ hj
    obtain ⟨name, -, hname⟩ := List.mem_filterMap.1 hfound
    exact lt_of_find s hname
  | size => exact .refl hsound
  | list => exact .refl hsound
  | clear => exact .edited (.edit .clear fun j hj => absurd hj List.not_mem_nil)
  | announce ev => exact .announce hacts ev hsound
  | session op => exact ⟨⟨trivial, trivial⟩, .change hsound op⟩

/-- By induction on how deep callbacks nest. -/
theorem explains_perform (depth : Nat) (c : Command) (hsound : s.registry.Sound) :
    Explains s (account depth c s) (perform depth c s).2 := by
  induction depth generalizing c s with
  | zero => exact explains_performWith (fun _ _ hs => .refl hs) c hsound
  | succ n ih => exact explains_performWith (fun c _ hs => ih c hs) c hsound

/-- **An announcement reaches its audience.** Let only listeners be registered that were made, and let them
do what they like when they are called, and fail, with callbacks nested however deep: an announcement comes
to its end. Its calls are for those who were registered when it began, for each as often as he was, in the
order of their registration, and about the session as it was then; and so are those of each announcement
made during a call, which is over before the call is. What was told to whom stands in the registry in the
order of the calls. Those are registered in the end who were before, but for the edits that were made
during the calls, in their order; every failure has left its line in the log. To remove a listener takes
his first registration out, and no other. -/
theorem announcement_reaches_audience (depth : Nat) (ev : Event) (hsound : s.registry.Sound) :
    ∃ calls s', perform depth (.announce ev) s = (.ok .done, s') ∧
      account depth (.announce ev) s = [.announced ev s.session calls] ∧
      calls.map Call.listener = s.registry.registered ∧
      Call.AllFit calls s.room ∧
      s'.registry.tellings = s.registry.tellings ++
        ((Call.stepsOf ev s.session calls).filterMap Step.tell?).filterMap s'.audible ∧
      s'.registry.registered = ((Call.stepsOf ev s.session calls).filterMap Step.edit?).foldl
        (fun is e => e.apply is) s.registry.registered ∧
      s'.log = ((Call.stepsOf ev s.session calls).filterMap Step.complaint?).foldl
        (·.write .error ·) s.log ∧
      ∀ i is, i ∈ is → ∃ front back, is = front ++ i :: back ∧ i ∉ front ∧
        (Edit.remove i).apply is = front ++ back := by
  obtain ⟨calls, haccount⟩ : ∃ calls,
      account depth (.announce ev) s = [.announced ev s.session calls] := by
    cases depth <;> exact ⟨_, rfl⟩
  have hanswer : (perform depth (.announce ev) s).1 = .ok .done := by cases depth <;> rfl
  have hexplains := explains_perform depth (.announce ev) hsound
  rw [haccount] at hexplains
  obtain ⟨⟨⟨-, haudience, hfit⟩, -⟩, htakes⟩ := hexplains
  rw [Happening.stepsOf, Happening.steps, Happening.stepsOf, List.append_nil] at htakes
  have hregistered := congrArg Room.registered htakes.room
  rw [Room.registered_after] at hregistered
  exact ⟨calls, _, Prod.ext hanswer rfl, haccount, haudience, hfit, htakes.tellings, hregistered,
    htakes.log, fun _ _ => Edit.apply_remove⟩

/-- Two listeners, of which the first is registered twice. When it is told of a start for the first time it
drops a registration of its own, registers the other once more, announces a stop, and fails. -/
def duet : Scene where
  registry :=
    { ears :=
        [⟨.scripted "first" (fun _ => true) (fun
            | .start => [.act (.remove (some "first")), .act (.add (some "second")),
                .act (.announce .stop), .fail "no more"]
            | _ => []) 1, fun _ => 0⟩,
          ⟨.scripted "second" (fun _ => true) (fun _ => []) 1, fun _ => 0⟩]
      registered := [0, 0, 1]
      deliveries := [] }
  session := Record.new "s" 7 none 1800000
  log := .new .error

/-- The audience of the start is as it was; the stop that is announced meanwhile has another one. -/
theorem announcement_reaches_audience_of_duet :
    duet.registry.Sound ∧
      ∃ calls s', perform 2 (.announce .start) duet = (.ok .done, s') ∧
        calls.map Call.listener = [0, 0, 1] ∧ Call.AllFit calls duet.room ∧
        s'.registry.registered = [0, 1, 1] ∧
        s'.registry.tellings.map (fun t => (t.1, t.2.1)) =
          ([("first", .start), ("first", .stop), ("second", .stop), ("second", .stop),
            ("first", .start), ("second", .start)] : List (Text × Event)) ∧
        s'.log.textsSince duet.log =
          ["[ERROR] Session listener failed on start of session s: no more"] := by
  have hsound : duet.registry.Sound := by decide
  obtain ⟨calls, s', hrun, -, haudience, hfit, -⟩ := announcement_reaches_audience 2 .start hsound
  have hs' : s' = (perform 2 (.announce .start) duet).2 := (congrArg Prod.snd hrun).symm
  refine ⟨hsound, calls, s', hrun, haudience, hfit, ?_⟩
  rw [hs']
  decide +kernel

end Scene
end Sessions
