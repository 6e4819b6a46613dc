import Mathlib.Logic.Relation
import Sessions.Proofs.Engine.Undisturbed
import Sessions.Proofs.Registry.Frame
import Sessions.Proofs.Store.Contents

/-!
# Sessions.Proofs.Engine.Ledger

What an engine books: the store, the journal, the ids that were drawn, and how many sessions were
started, stopped and expired. However deep the commands of listeners nest, the books are changed by
a few kinds of steps only, and each of them is complete in itself: what becomes of a session is
stored, counted and announced in one go, before any listener acts.

* `Command.Orderly p` says that a command, and all that its listeners may ever do, goes through the
  manager and satisfies `p`.
* `Ledger.Step` lists the steps.
* `Engine.Leads p e e'` says that the books of `e'` come from those of `e` by such steps, if the
  listeners of `e` are orderly.
* `stage_keeps`, `leads_announce`: announcements, given that the commands of listeners lead on.
* `leads_launched`, `leads_stopped`, `leads_expired`, `leads_changed`: the transitions of a session.
-/

namespace Sessions

/-! ## Orderly commands -/

namespace Engine

/-- The command hands no commands on, and writes no records past the manager. -/
def Command.isPlain : Command → Bool
  | .listen _ | .hook .. | .store (.change ..) | .store (.put ..) => false
  | _ => true

/-- The command goes through the manager, or drops sessions, and satisfies `p`; and so does all that
a listener does which it registers. -/
inductive Command.Orderly (p : Command → Prop) : Command → Prop
  | plain {c : Command} : c.isPlain = true → p c → Orderly p c
  | listen {l : Listener Command} : p (.listen l) →
      (∀ ev n, ∀ c ∈ (l.react ev n).actions, Orderly p c) → Orderly p (.listen l)

theorem Command.Orderly.mono {p p' : Command → Prop} (hp : ∀ c, p c → p' c) {c : Command}
    (h : c.Orderly p) : c.Orderly p' := by
  induction h with
  | plain hplain hc => exact .plain hplain (hp _ hc)
  | listen hl _ ih => exact .listen (hp _ hl) ih

theorem Command.orderly_of_isPlain {cs : List Command} (h : cs.all (·.isPlain) = true) :
    ∀ c ∈ cs, c.Orderly fun _ => True :=
  fun c hc => .plain (List.all_eq_true.1 h c hc) trivial

end Engine

def Listener.Orderly (p : Engine.Command → Prop) (l : Listener Engine.Command) : Prop :=
  ∀ ev n, ∀ c ∈ (l.react ev n).actions, c.Orderly p

/-! ## The books -/

structure Ledger where
  store : Store
  admission : Admission
  journal : List Engine.Entry
  drawn : Nat
  started : Nat
  stopped : Nat
  expired : Nat

namespace Ledger

def keep (l : Ledger) (store : Store) : Ledger :=
  { l with store, journal := l.journal ++ [.stored store.records] }

def tally (l : Ledger) : Event → Ledger
  | .start => { l with started := l.started + 1 }
  | .stop => { l with stopped := l.stopped + 1 }
  | .expiration => { l with expired := l.expired + 1 }

def tell (l : Ledger) (ev : Event) (r : Record) : Ledger :=
  { l with journal := l.journal ++ [.told ev r] }

/-- A transition of a session was stored, counted and announced. -/
def book (l : Ledger) (store : Store) (ev : Event) (r : Record) : Ledger :=
  ((l.keep store).tally ev).tell ev r

def draw (l : Ledger) : Ledger := { l with drawn := l.drawn + 1 }

/-- One step of the books, with ids from a source and commands that satisfy `p`. -/
inductive Step (source : IdSource) (p : Engine.Command → Prop) : Ledger → Ledger → Prop
  | draw (l : Ledger) : Step source p l l.draw
  /-- A session came into being, under the id that was just drawn. -/
  | start {l : Ledger} {host : Option Text} {now : Timestamp} {limit : Millis} {store : Store}
      {lines : List LogLine} : l.admission.check host = .ok () →
      l.store.create (Record.new (Id.ofWords (source l.drawn)) now host limit) =
        .ok (store, lines) →
      Step source p l
        (l.draw.book store .start (Record.new (Id.ofWords (source l.drawn)) now host limit))
  | change {l : Ledger} {r r' : Record} {store : Store} : l.store.read r.id = some r →
      r.Amends r' → l.store.update r' = .ok store → Step source p l (l.keep store)
  | stop {l : Ledger} {r r' : Record} {now : Timestamp} {store : Store} :
      l.store.read r.id = some r → r.stop now = .ok r' → l.store.update r' = .ok store →
      Step source p l (l.book store .stop r')
  | expire {l : Ledger} {r : Record} {now : Timestamp} {store : Store} :
      l.store.read r.id = some r → r.validity now = .timedOut →
      l.store.update r.marked = .ok store → Step source p l (l.book store .expiration r.marked)
  | drop {l : Ledger} (ref : Engine.Ref) (id : Id) : p (.store (.remove ref)) →
      Step source p l (l.keep (l.store.remove id).2)
  | purge {l : Ledger} : p (.store .purge) → Step source p l (l.keep l.store.purge.2)
  | limit {l : Ledger} {n : Nat} : p (.store (.setLimit n)) →
      Step source p l { l with store := l.store.setLimit n }
  | rule {l : Ledger} {c : Engine.Command} (admission : Admission) : p c →
      (∃ filter, c = .setFilter filter) ∨ (∃ on, c = .setRequireHost on) →
      Step source p l { l with admission }

abbrev Path (source : IdSource) (p : Engine.Command → Prop) : Ledger → Ledger → Prop :=
  Relation.ReflTransGen (Step source p)

end Ledger

namespace Engine

variable {p : Command → Prop} {act : Act} {e e' e'' : Engine}

def ledger (e : Engine) : Ledger where
  store := e.store
  admission := e.admission
  journal := e.journal
  drawn := e.drawn
  started := e.stats.started
  stopped := e.stats.stopped
  expired := e.stats.expired

/-- The store has no hooks, and every listener is orderly, registered or not. -/
structure Regular (p : Command → Prop) (e : Engine) : Prop where
  undisturbed : e.Undisturbed
  ears : ∀ ear ∈ e.registry.ears, ear.listener.Orderly p

/-- The books of the second engine come from those of the first by steps, if that one is regular;
then the second one is regular, too. -/
def Leads (p : Command → Prop) (e e' : Engine) : Prop :=
  e.Regular p → e'.Regular p ∧ e'.source = e.source ∧ Ledger.Path e.source p e.ledger e'.ledger

namespace Leads

theorem refl (e : Engine) : Leads p e e := fun h => ⟨h, rfl, .refl⟩

theorem trans (h : Leads p e e') (h' : Leads p e' e'') : Leads p e e'' := by
  intro hreg
  obtain ⟨hreg', hsource, hpath⟩ := h hreg
  obtain ⟨hreg'', hsource', hpath'⟩ := h' hreg'
  rw [hsource] at hsource' hpath'
  exact ⟨hreg'', hsource', hpath.trans hpath'⟩

/-- What books nothing and makes no listeners. -/
theorem frame (hhooks : e'.disturbance.hooks = e.disturbance.hooks)
    (hears : e'.registry.ears = e.registry.ears) (hsource : e'.source = e.source)
    (hledger : e'.ledger = e.ledger) : Leads p e e' := by
  intro hreg
  refine ⟨⟨hhooks.trans hreg.undisturbed, ?_⟩, hsource, by rw [hledger]⟩
  rw [hears]
  exact hreg.ears

theorem step (hhooks : e'.disturbance.hooks = e.disturbance.hooks)
    (hears : e'.registry.ears = e.registry.ears) (hsource : e'.source = e.source)
    (hstep : Ledger.Step e.source p e.ledger e'.ledger) : Leads p e e' := by
  intro hreg
  refine ⟨⟨hhooks.trans hreg.undisturbed, ?_⟩, hsource, .single hstep⟩
  rw [hears]
  exact hreg.ears

/-- What is to be shown may use that the engine is regular. -/
theorem of_regular (h : e.Regular p → Leads p e e') : Leads p e e' := fun hreg => h hreg hreg

theorem regular (h : Leads p e e') (hreg : e.Regular p) : e'.Regular p := (h hreg).1

end Leads

/-! ## Programs -/

theorem leads_bind {α β : Type} {q : Manager.Op α} {f : α → Manager.Op β}
    (hq : Leads p e (runOp act q e).2)
    (hf : ∀ a e', runOp act q e = (.ok a, e') → Leads p e' (runOp act (f a) e').2) :
    Leads p e (runOp act (q >>= f) e).2 := by
  cases hrun : runOp act q e with
  | mk r e' =>
    rw [hrun] at hq
    cases r with
    | error x =>
      rw [runOp_bind_error hrun]
      exact hq
    | ok a =>
      rw [runOp_bind_ok hrun]
      exact hq.trans (hf a e' hrun)

theorem leads_of_ensure {o : Except Fault Unit} (h : e.ensureBackground = (o, e')) :
    Leads p e e' := by
  have hbackground : Leads p e e.ensureBackground.2 := .frame rfl rfl rfl rfl
  rwa [h] at hbackground

/-! ## Announcements -/

/-- Listeners act in an orderly way. -/
def Obeys (p : Command → Prop) (act : Act) : Prop :=
  ∀ c e, c.Orderly p → Leads p e (act c e).2

theorem mem_ears_of_modify {ears : List (Ear Command)} {i : Nat} {f : Ear Command → Ear Command}
    (hf : ∀ ear, (f ear).listener = ear.listener) {ear : Ear Command}
    (h : ear ∈ ears.modify i f) : ∃ ear' ∈ ears, ear'.listener = ear.listener := by
  obtain ⟨j, hj⟩ := List.mem_iff_getElem?.1 h
  rw [List.getElem?_modify] at hj
  cases hold : ears[j]? with
  | none =>
    rw [hold] at hj
    cases hj
  | some ear' =>
    rw [hold] at hj
    refine ⟨ear', List.mem_of_getElem? hold, ?_⟩
    by_cases hij : i = j
    · simp only [if_pos hij, Option.map_eq_map, Option.map_some, Option.some.injEq] at hj
      rw [← hj, hf]
    · simp only [if_neg hij, Option.map_eq_map, Option.map_some, Option.some.injEq] at hj
      rw [← hj]

theorem leads_hear (e : Engine) (i : ListenerId) (ev : Event) (name : Text) (r : Record) :
    Leads p e { e with registry := (e.registry.hear i ev).beginDelivery name ev r } := by
  intro hreg
  refine ⟨⟨hreg.undisturbed, ?_⟩, rfl, .refl⟩
  intro ear hear
  have hmodified : ear ∈ (e.registry.hear i ev).ears := hear
  obtain ⟨ear', hmem, hsame⟩ := mem_ears_of_modify (by intro _; rfl) hmodified
  rw [← hsame]
  exact hreg.ears ear' hmem

theorem stage_keeps (hact : Obeys p act) : (stage act).Keeps (·.Orderly p) (Leads p) where
  refl := .refl
  trans := .trans
  of_tame h := Leads.of_regular fun hreg => h hreg.ears
  hear i ev name r e := leads_hear e i ev name r
  act r delivery c e hc := by
    -- the subject is set for the time of the command only, and is booked nowhere
    have hsubject : Leads p e { e with subject := some r.id } := .frame rfl rfl rfl rfl
    have hback : Leads p (act c { e with subject := some r.id }).2
        ((stage act).update (·.noteOutcome delivery (act c { e with subject := some r.id }).1)
          ((stage act).act r c e).2) := .frame rfl rfl rfl rfl
    exact (hsubject.trans (hact c _ hc)).trans hback
  note _ _ _ := .frame rfl rfl rfl rfl

theorem leads_announce (hact : Obeys p act) (ev : Event) (r : Record) (e : Engine) :
    Leads p (e.enter (.told ev r)) (announce act ev r e) :=
  (stage_keeps hact).announce ev r _

/-! ## The store -/

theorem createNow_eq_ok {r : Record} (h : e.createNow r = (.ok (), e')) :
    ∃ store lines, e.store.create r = .ok (store, lines) ∧
      e' = ({ e with known := e.known ++ [r.id] }.keep store).noteAll lines := by
  unfold createNow at h
  split at h
  · cases h
  · split at h
    · cases h
    · rename_i store lines hcreate
      cases h
      exact ⟨store, lines, hcreate, rfl⟩

theorem createNow_eq_error {r : Record} {f : Fault} (h : e.createNow r = (.error f, e')) :
    e' = e := by
  unfold createNow at h
  split at h
  · cases h; rfl
  · split at h <;> cases h
    rfl

theorem updateNow_eq_ok {r : Record} (h : e.updateNow r = (.ok (), e')) :
    ∃ store, e.store.update r = .ok store ∧ e' = e.keep store := by
  unfold updateNow at h
  split at h
  · cases h
  · split at h
    · cases h
    · rename_i store hupdate
      cases h
      exact ⟨store, hupdate, rfl⟩

theorem updateNow_eq_error {r : Record} {f : Fault} (h : e.updateNow r = (.error f, e')) :
    e' = e := by
  unfold updateNow at h
  split at h
  · cases h; rfl
  · split at h <;> cases h
    rfl

/-! ## The transitions of a session -/

variable {r r' : Record}

theorem leads_launched (hact : Obeys p act) {host : Option Text}
    (hcheck : e.admission.check host = .ok ())
    (h : e.supplied.createNow (e.fresh host) = (.ok (), e')) :
    Leads p e (e'.launched act (e.fresh host)) := by
  obtain ⟨store, lines, hcreate, rfl⟩ := createNow_eq_ok h
  refine Leads.trans ?_ (leads_announce hact .start (e.fresh host) _)
  have hbooked : Ledger.Step e.source p e.ledger
      (e.ledger.draw.book store .start (e.fresh host)) := .start hcheck hcreate
  exact .step rfl rfl rfl hbooked

theorem leads_stopped (hact : Obeys p act) {now : Timestamp} (hread : e.store.read r.id = some r)
    (hstop : r.stop now = .ok r') (h : e.updateNow r' = (.ok (), e')) (level : Level)
    (message : Text) :
    Leads p e (announce act .stop r' ((e'.counting .stopped).note level message)) := by
  obtain ⟨store, hupdate, rfl⟩ := updateNow_eq_ok h
  refine Leads.trans ?_ (leads_announce hact .stop r' _)
  have hbooked : Ledger.Step e.source p e.ledger (e.ledger.book store .stop r') :=
    .stop hread hstop hupdate
  exact .step rfl rfl rfl hbooked

theorem leads_expired (hact : Obeys p act) {now : Timestamp} (hread : e.store.read r.id = some r)
    (hnow : r.validity now = .timedOut) (h : e.updateNow r.marked = (.ok (), e')) :
    Leads p e (announce act .expiration r.marked (e'.counting .expired)) := by
  obtain ⟨store, hupdate, rfl⟩ := updateNow_eq_ok h
  refine Leads.trans ?_ (leads_announce hact .expiration r.marked _)
  have hbooked : Ledger.Step e.source p e.ledger (e.ledger.book store .expiration r.marked) :=
    .expire hread hnow hupdate
  exact .step rfl rfl rfl hbooked

theorem leads_changed (hread : e.store.read r.id = some r) (hchange : r.Amends r')
    (o : Except Fault Unit) (h : e.updateNow r' = (o, e')) : Leads p e e' := by
  cases o with
  | error f =>
    rw [updateNow_eq_error h]
    exact .refl e
  | ok u =>
    obtain ⟨store, hupdate, rfl⟩ := updateNow_eq_ok h
    exact .step rfl rfl rfl (.change (l := e.ledger) hread hchange hupdate)

end Engine
end Sessions
