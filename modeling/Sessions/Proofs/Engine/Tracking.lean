import Sessions.Proofs.Engine.Chronicle
import Sessions.Proofs.Engine.History
import Sessions.Proofs.Manager.Conserving
import Sessions.Proofs.Manager.Session

/-!
# Sessions.Proofs.Engine.Tracking

The attributes of a session as the operations by id have them that a chronicle lists. However the operations
come about, as long as the session stays in the store they answer as a finite map would to which exactly the
successful ones were written.

* `Operation.Follows`: operations, one after the other, on a mapping.
* `Chronicle.Tracks i s s'`: from the one state to the other the attributes of session `i` follow the
  operations on it.
* `Chronicle.tracks_runOp`, `Chronicle.tracks_serve`: programs, given that the commands of listeners track.
* `Chronicle.tracks_perform`, `Chronicle.tracks_after`: commands with callbacks nested to any depth, and runs.
-/

namespace Sessions

namespace Operation

/-- The operations answer as a finite map does that the successful ones write to, from one mapping to another
one. -/
def Follows : Mapping → List Operation → Mapping → Prop
  | m, [], m' => m' = m
  | m, ⟨_, c, .ok a⟩ :: os, m' => c.Reads a m ∧ Follows (c.writes m) os m'
  | m, ⟨_, _, .error _⟩ :: os, m' => Follows m os m'

theorem follows_append {m m' m'' : Mapping} {os os' : List Operation} (h : Follows m os m')
    (h' : Follows m' os' m'') : Follows m (os ++ os') m'' := by
  induction os generalizing m with
  | nil =>
    cases h
    exact h'
  | cons o os ih =>
    obtain ⟨i, c, result⟩ := o
    cases result with
    | ok a => exact ⟨h.1, ih h.2⟩
    | error f => exact ih (m := m) h

end Operation

namespace Chronicle

open Engine (Command Reply HandleCommand StoreCommand Entry)

variable {act : Act} {i id : Id} {ctx : Context} {s s' s'' : Chronicle}

/-- From an engine that is regular to one that is again: what was done is listed, and if a session stays in
the store all the while, its attributes follow the operations on it. -/
def Tracks (i : Id) (s s' : Chronicle) : Prop :=
  s.engine.Regular (fun _ => True) → s'.engine.Regular (fun _ => True) ∧
    ∃ done added, s'.operations = s.operations ++ done ∧
      s'.engine.journal = s.engine.journal ++ added ∧
      ∀ r, s.engine.store.read i = some r →
        (∀ content ∈ added.filterMap (·.content?), content.contains i = true) →
        ∃ r', s'.engine.store.read i = some r' ∧
          Operation.Follows r.mapping (done.filter (·.id = i)) r'.mapping

def noted (s : Chronicle) (o : Operation) : Chronicle := { s with operations := s.operations ++ [o] }

namespace Tracks

/-- What touches neither the records nor the listeners, and lists nothing. -/
theorem frame (hhooks : s'.engine.disturbance.hooks = s.engine.disturbance.hooks)
    (hears : s'.engine.registry.ears = s.engine.registry.ears)
    (hrecords : s'.engine.store.records = s.engine.store.records)
    (hjournal : s'.engine.journal = s.engine.journal) (hdone : s'.operations = s.operations) :
    Tracks i s s' := by
  intro hreg
  refine ⟨⟨hhooks.trans hreg.undisturbed, hears ▸ hreg.ears⟩, [], [], ?_, ?_, fun r hread _ => ?_⟩
  · rw [hdone, List.append_nil]
  · rw [hjournal, List.append_nil]
  · refine ⟨r, ?_, rfl⟩
    rw [Store.read, hrecords]
    exact hread

theorem refl (s : Chronicle) : Tracks i s s := .frame rfl rfl rfl rfl rfl

theorem trans (h : Tracks i s s') (h' : Tracks i s' s'') : Tracks i s s'' := by
  intro hreg
  obtain ⟨hreg', done, added, hdone, hadded, hmapping⟩ := h hreg
  obtain ⟨hreg'', done', added', hdone', hadded', hmapping'⟩ := h' hreg'
  refine ⟨hreg'', done ++ done', added ++ added', ?_, ?_, fun r hread hstays => ?_⟩
  · rw [hdone', hdone, List.append_assoc]
  · rw [hadded', hadded, List.append_assoc]
  · rw [List.filterMap_append] at hstays
    obtain ⟨r', hread', hfollows⟩ := hmapping r hread fun c hc =>
      hstays c (List.mem_append_left _ hc)
    obtain ⟨r'', hread'', hfollows'⟩ := hmapping' r' hread' fun c hc =>
      hstays c (List.mem_append_right _ hc)
    refine ⟨r'', hread'', ?_⟩
    rw [List.filter_append]
    exact Operation.follows_append hfollows hfollows'

/-- What is to be shown may use that the engine is regular. -/
theorem of_regular (h : s.engine.Regular (fun _ => True) → Tracks i s s') : Tracks i s s' :=
  fun hreg => h hreg hreg

theorem regular (h : Tracks i s s') (hreg : s.engine.Regular fun _ => True) :
    s'.engine.Regular fun _ => True := (h hreg).1

/-- The store gets a new content. Where the session stays its attributes do. -/
theorem keep {store : Store} (hstays : ∀ r, s.engine.store.read i = some r →
      store.contains i = true → ∃ r', store.read i = some r' ∧ r'.mapping = r.mapping) :
    Tracks i s (s.set (·.keep store)) := by
  intro hreg
  refine ⟨⟨hreg.undisturbed, hreg.ears⟩, [], [.stored store.records], ?_, rfl, fun r hread hholds => ?_⟩
  · exact (List.append_nil _).symm
  · exact hstays r hread (hholds store.records (List.mem_singleton.2 rfl))

/-- Sessions are dropped, and the others stay as they are. -/
theorem shrink {store : Store}
    (hsubset : ∀ r, store.read i = some r → s.engine.store.read i = some r) :
    Tracks i s (s.set (·.keep store)) := by
  refine .keep fun r hread hholds => ?_
  obtain ⟨r', hr'⟩ := Option.isSome_iff_exists.1 hholds
  obtain rfl : r = r' := Option.some.inj (hread.symm.trans (hsubset r' hr'))
  exact ⟨r, hr', rfl⟩

theorem told (s : Chronicle) (ev : Event) (r : Record) :
    Tracks i s (s.set (·.enter (.told ev r))) := by
  intro hreg
  exact ⟨⟨hreg.undisturbed, hreg.ears⟩, [], [.told ev r], (List.append_nil _).symm, rfl,
    fun v hread _ => ⟨v, hread, rfl⟩⟩

/-- An operation that failed is listed. -/
theorem noted_error (s : Chronicle) (c : Call) (f : Fault) :
    Tracks i s (s.noted ⟨id, c, .error f⟩) := by
  intro hreg
  refine ⟨⟨hreg.undisturbed, hreg.ears⟩, [⟨id, c, .error f⟩], [], rfl, ?_, fun r hread _ => ?_⟩
  · exact (List.append_nil _).symm
  · refine ⟨r, hread, ?_⟩
    by_cases hid : id = i <;> simp [hid, Operation.Follows]

theorem noted_stop (s : Chronicle) (o : Except Fault Unit) :
    Tracks i s (s.noted ⟨id, .stop, o⟩) := by
  intro hreg
  refine ⟨⟨hreg.undisturbed, hreg.ears⟩, [⟨id, .stop, o⟩], [], rfl, ?_, fun r hread _ => ?_⟩
  · exact (List.append_nil _).symm
  · refine ⟨r, hread, ?_⟩
    by_cases hid : id = i <;> cases o <;> simp [hid, Operation.Follows, Call.Reads, Call.writes]

end Tracks

/-- What an operation comes to is written over the record that it was read off. -/
def Wrote (changed : Option Record) (e e' : Engine) : Prop :=
  match changed with
  | none => e' = e
  | some r' => e.updateNow r' = (.ok (), e')

/-- An operation is listed with what it comes to. -/
theorem Tracks.noted_effect {c : Call} {r : Record} {now : Timestamp} {a : c.Result}
    {changed : Option Record} {e' : Engine} (hread : s.engine.store.read id = some r)
    (heffect : c.effect r now = .ok (a, changed)) (hwrote : Wrote changed s.engine e') :
    Tracks i s (noted ⟨e', s.operations⟩ ⟨id, c, .ok a⟩) := by
  have hreads := Call.reads_of_effect heffect
  have hwrites := Call.writes_of_effect heffect
  intro hreg
  cases changed with
  | none =>
    cases hwrote
    refine ⟨⟨hreg.undisturbed, hreg.ears⟩, [⟨id, c, .ok a⟩], [], rfl, (List.append_nil _).symm,
      fun v hv _ => ⟨v, hv, ?_⟩⟩
    by_cases hid : id = i
    · subst hid
      obtain rfl : r = v := Option.some.inj (hread.symm.trans hv)
      simp only [decide_true, List.filter_cons_of_pos, List.filter_nil]
      exact ⟨hreads, hwrites⟩
    · simp [hid, Operation.Follows]
  | some r' =>
    obtain ⟨store, hupdate, rfl⟩ := Engine.updateNow_eq_ok hwrote
    have hwritten : c.written r now = some r' := by rw [Call.written, heffect]
    have hr' : r'.id = id := (Call.evolves_of_written hwritten).id.trans (Roster.id_of_get? hread)
    refine ⟨⟨hreg.undisturbed, hreg.ears⟩, [⟨id, c, .ok a⟩], [.stored store.records], rfl, rfl,
      fun v hv _ => ?_⟩
    have hstore : store.read i = _ := Store.read_update hupdate i
    by_cases hid : id = i
    · subst hid
      obtain rfl : r = v := Option.some.inj (hread.symm.trans hv)
      rw [if_pos hr'.symm] at hstore
      refine ⟨r', hstore, ?_⟩
      simp only [decide_true, List.filter_cons_of_pos, List.filter_nil]
      exact ⟨hreads, hwrites⟩
    · rw [if_neg fun h => hid (hr'.symm.trans h.symm)] at hstore
      exact ⟨v, hstore.trans hv, by simp [hid, Operation.Follows]⟩

/-- What is done inside of callbacks does not depend on what is listed, and tracks every session. -/
structure Faithful (act : Act) : Prop where
  blind : act.Blind
  tracks : ∀ {i c}, c.Orderly (fun _ => True) → ∀ s, Tracks i s (act c s).2

/-! ## Announcements -/

theorem tracks_hear (s : Chronicle) (l : ListenerId) (ev : Event) (name : Text) (r : Record) :
    Tracks i s (s.set fun e =>
      { e with registry := (e.registry.hear l ev).beginDelivery name ev r }) := by
  intro hreg
  -- a listener that heard of something more is the same listener
  have hregular := (Engine.leads_hear s.engine l ev name r).regular hreg
  exact ⟨hregular, [], [], (List.append_nil _).symm, (List.append_nil _).symm,
    fun v hv _ => ⟨v, hv, rfl⟩⟩

theorem tracks_announce (hact : Faithful act) (ev : Event) (r : Record) (s : Chronicle) :
    Tracks i s (announce act ev r s) := by
  have hkeeps : (stage act).Keeps (·.Orderly fun _ => True) (Tracks i) :=
    { refl := .refl
      trans := .trans
      of_tame := fun h => Tracks.of_regular fun hreg => h hreg.ears
      hear := fun l ev name r s => tracks_hear s l ev name r
      act := by
        intro r delivery c s hc
        have hsubject : Tracks i s (s.set fun e => { e with subject := some r.id }) :=
          .frame rfl rfl rfl rfl rfl
        have hback : Tracks i (act c (s.set fun e => { e with subject := some r.id })).2
            ((stage act).update
              (·.noteOutcome delivery (act c (s.set fun e => { e with subject := some r.id })).1)
              ((stage act).act r c s).2) := .frame rfl rfl rfl rfl rfl
        exact (hsubject.trans (hact.tracks hc _)).trans hback
      note := fun _ _ _ => .frame rfl rfl rfl rfl rfl }
  exact (Tracks.told s ev r).trans (hkeeps.announce ev r _)

/-! ## Questions and programs -/

theorem tracks_createNow (r : Record) (s : Chronicle) :
    Tracks i s (within (·.createNow r) s).2 := by
  cases h : s.engine.createNow r with
  | mk o e' =>
    cases o with
    | error f =>
      have hsame : (within (·.createNow r) s).2 = s := by
        rw [within, h, Engine.createNow_eq_error h]
      rw [hsame]
      exact .refl s
    | ok u =>
      obtain ⟨store, lines, hcreate, rfl⟩ := Engine.createNow_eq_ok h
      obtain ⟨hnew, _, hothers⟩ := Store.read_create hcreate
      have hbefore : Tracks i s (s.set fun e => { e with known := e.known ++ [r.id] }) :=
        .frame rfl rfl rfl rfl rfl
      have hkept : Tracks i (s.set fun e => { e with known := e.known ++ [r.id] })
          ((s.set fun e => { e with known := e.known ++ [r.id] }).set (·.keep store)) := by
        refine .keep fun v hread hholds => ⟨v, ?_, rfl⟩
        have hi : i ≠ r.id := by
          rintro rfl
          have hstored : s.engine.store.read r.id = some v := hread
          rw [hnew] at hstored
          cases hstored
        rcases hothers i hi with hsame | ⟨_, hgone, _⟩
        · exact hsame.trans hread
        · rw [Store.contains, Roster.contains_eq_false_iff.2 hgone] at hholds
          cases hholds
      have hdone : (within (·.createNow r) s).2 =
          ((s.set fun e => { e with known := e.known ++ [r.id] }).set (·.keep store)).set
            (·.noteAll lines) := by
        rw [within, h]
        rfl
      rw [hdone]
      exact (hbefore.trans hkept).trans (.frame rfl rfl rfl rfl rfl)

/-- A record is written over itself with its attributes. -/
theorem tracks_updateNow {v r : Record} (hread : s.engine.store.read v.id = some v) (hid : v.id = r.id)
    (hmapping : r.mapping = v.mapping) : Tracks i s (within (·.updateNow r) s).2 := by
  cases h : s.engine.updateNow r with
  | mk o e' =>
    cases o with
    | error f =>
      have hsame : (within (·.updateNow r) s).2 = s := by
        rw [within, h, Engine.updateNow_eq_error h]
      rw [hsame]
      exact .refl s
    | ok u =>
      obtain ⟨store, hupdate, rfl⟩ := Engine.updateNow_eq_ok h
      have hdone : (within (·.updateNow r) s).2 = s.set (·.keep store) := by
        rw [within, h]
        rfl
      rw [hdone]
      refine .keep fun w hw _ => ?_
      rw [Store.read_update hupdate]
      by_cases hi : i = r.id
      · rw [hi, ← hid, hread, Option.some.injEq] at hw
        exact ⟨r, if_pos hi, hw ▸ hmapping⟩
      · exact ⟨w, (if_neg hi).trans hw, rfl⟩

/-- Answers leave the attributes of every session as they are, or list what was done to them. -/
theorem tracks_answer (hact : Faithful act) {before : Option Record} {q : Manager.Question}
    (hq : q.Conserves before)
    (hbefore : ∀ v, before = some v → s.engine.store.read v.id = some v) :
    Tracks i s (answer act q s).2 := by
  apply Tracks.of_regular
  intro hreg
  have hcalm := hreg.undisturbed
  cases q with
  | announce ev r => exact tracks_announce hact ev r s
  | read id =>
    have hanswer : (answer act (.read id) s).2 = s := by
      change { s with engine := (Engine.runOp act.bare (Manager.read id) s.engine).2 } = s
      rw [Engine.runOp_read _ hcalm]
    rw [hanswer]
    exact .refl s
  | live =>
    have hanswer : (answer act .live s).2 = s := by
      change { s with engine := (Engine.runOp act.bare Manager.live s.engine).2 } = s
      rw [Engine.runOp_live _ hcalm]
    rw [hanswer]
    exact .refl s
  | create r =>
    have hanswer : (answer act (.create r) s).2 = (within (·.createNow r) s).2 := by
      change { s with engine := (Engine.runOp act.bare (Manager.create r) s.engine).2 } = _
      rw [Engine.runOp_create _ hcalm]
      rfl
    rw [hanswer]
    exact tracks_createNow r s
  | update r =>
    obtain ⟨v, hv, hid, hmapping⟩ := hq
    have hanswer : (answer act (.update r) s).2 = (within (·.updateNow r) s).2 := by
      change { s with engine := (Engine.runOp act.bare (Manager.update r) s.engine).2 } = _
      rw [Engine.runOp_update _ hcalm]
      rfl
    rw [hanswer]
    exact tracks_updateNow (hbefore v hv) hid hmapping
  | _ => exact .frame rfl rfl rfl rfl rfl

/-- What was read last is what is stored, as long as nobody had occasion to change it. -/
theorem read_of_seen (hcalm : s.engine.Undisturbed) {before : Option Record} {q : Manager.Question}
    (hbefore : ∀ v, before = some v → s.engine.store.read v.id = some v) {v : Record}
    (hseen : q.seen before (answer act q s).1 = some v) :
    (answer act q s).2.engine.store.read v.id = some v := by
  cases q with
  | read id =>
    have hread := Engine.runOp_read act.bare hcalm id
    have hanswer : answer act (.read id) s = (.ok (s.engine.store.read id), s) := by
      change ((Engine.runOp act.bare (Manager.read id) s.engine).1,
        { s with engine := (Engine.runOp act.bare (Manager.read id) s.engine).2 }) = _
      rw [hread]
    rw [hanswer] at hseen ⊢
    have hstored : s.engine.store.read id = some v := hseen
    rwa [Roster.id_of_get? hstored]
  | create r => cases hseen
  | update r => cases hseen
  | announce ev r => cases hseen
  | live => cases hseen
  | _ => exact hbefore v hseen

theorem tracks_runOp {α : Type} (hact : Faithful act) {before : Option Record} {p : Manager.Op α}
    (hp : Manager.Conserving before p)
    (hbefore : ∀ v, before = some v → s.engine.store.read v.id = some v) :
    Tracks i s (runOp act p s).2 := by
  unfold runOp
  induction p generalizing before s with
  | done r => exact .refl s
  | ask q next ih =>
    apply Tracks.of_regular
    intro hreg
    exact (tracks_answer hact hp.1 hbefore).trans
      (ih _ (hp.2 _) fun v hv => read_of_seen hreg.undisturbed hbefore hv)

theorem tracks_conserving {α : Type} (hact : Faithful act) {p : Manager.Op α}
    (hp : Manager.Conserving none p) (s : Chronicle) : Tracks i s (runOp act p s).2 :=
  tracks_runOp hact hp fun v hv => by cases hv

/-! ## Operations by id -/

theorem runOp_bind {α β : Type} (p : Manager.Op α) (f : α → Manager.Op β) (s : Chronicle) :
    runOp act (p >>= f) s =
      match runOp act p s with
      | (.ok a, s') => runOp act (f a) s'
      | (.error x, s') => (.error x, s') := by
  unfold runOp
  rw [Program.run_bind]
  obtain ⟨o, s'⟩ := p.run (answer act) s
  cases o <;> rfl

/-- How an operation with a given effect on the record of a session ends: it fails, or it finds the session
and writes what the effect comes to on it. -/
inductive Applied {α : Type} (effect : Record → Timestamp → Except Fault (α × Option Record)) (id i : Id)
    (s : Chronicle) : Except Fault α × Chronicle → Prop
  | failed {f : Fault} {s' : Chronicle} : Tracks i s s' → Applied effect id i s (.error f, s')
  | done {s' : Chronicle} {r : Record} (now : Timestamp) {a : α} {changed : Option Record} {e' : Engine} :
      Tracks i s s' → s'.engine.store.read id = some r → effect r now = .ok (a, changed) →
      Wrote changed s'.engine e' → Applied effect id i s (.ok a, ⟨e', s'.operations⟩)

theorem Applied.noted {c : Call} {o : Except Fault c.Result × Chronicle}
    (h : Applied c.effect id i s o) : Tracks i s (o.2.noted ⟨id, c, o.1⟩) := by
  cases h with
  | failed h => exact h.trans (.noted_error _ c _)
  | done now h hread heffect hwrote => exact h.trans (.noted_effect hread heffect hwrote)

theorem Applied.map {α β : Type} {effect : Record → Timestamp → Except Fault (α × Option Record)}
    {o : Except Fault α × Chronicle} (h : Applied effect id i s o) (g : α → β) :
    Applied (fun r now => (effect r now).map fun p => (g p.1, p.2)) id i s (o.1.map g, o.2) := by
  cases h with
  | failed h => exact .failed h
  | done now h hread heffect hwrote => exact .done now h hread (by rw [heffect]; rfl) hwrote

section

variable (hact : Faithful act) (hreg : s.engine.Regular fun _ => True)
include hact hreg

/-- What a session that is looked up comes to: a fault, or the record that is stored. -/
theorem getSession_cases (id : Id) (ctx : Context) :
    (∃ f s', runOp act (Manager.getSession id ctx) s = (.error f, s') ∧ ∀ i, Tracks i s s') ∨
    ∃ r s', runOp act (Manager.getSession id ctx) s = (.ok r, s') ∧ (∀ i, Tracks i s s') ∧
      s'.engine.store.read id = some r ∧ s'.engine.Undisturbed := by
  have htracks : ∀ i, Tracks i s (runOp act (Manager.getSession id ctx) s).2 := fun i =>
    tracks_conserving hact (Manager.conserving_getSession id ctx) s
  have hengine := view_runOp hact.blind (Manager.getSession id ctx) s
  cases hrun : runOp act (Manager.getSession id ctx) s with
  | mk o s' =>
    rw [hrun] at htracks hengine
    cases o with
    | error f => exact .inl ⟨f, s', rfl, htracks⟩
    | ok r =>
      have hfound : Engine.runOp act.bare (Manager.getSession id ctx) s.engine = (.ok r, s'.engine) :=
        hengine.symm
      obtain ⟨hread, _, hcalm⟩ := Engine.getSession_stored hreg.undisturbed hfound
      exact .inr ⟨r, s', rfl, htracks, hread, hcalm⟩

theorem applied_answer {α : Type} (id i : Id) (ctx : Context) (f : Record → α) :
    Applied (fun r _ => .ok (f r, none)) id i s
      (runOp act (Manager.getSession id ctx >>= fun r => pure (f r)) s) := by
  rw [runOp_bind]
  rcases getSession_cases hact hreg id ctx with
    ⟨x, s', hrun, htracks⟩ | ⟨r, s', hrun, htracks, hread, _⟩
  · rw [hrun]
    exact .failed (htracks i)
  · rw [hrun]
    exact .done 0 (htracks i) hread rfl rfl

theorem applied_mutate {α : Type} (id i : Id) (ctx : Context)
    (change : Record → Timestamp → Except Fault (α × Option Record)) :
    Applied change id i s (runOp act (Manager.mutate id ctx change) s) := by
  rw [Manager.mutate, runOp_bind]
  rcases getSession_cases hact hreg id ctx with
    ⟨x, s', hrun, htracks⟩ | ⟨r, s', hrun, htracks, hread, hcalm⟩
  · rw [hrun]
    exact .failed (htracks i)
  · rw [hrun]
    -- the clock is read between the look-up and the change
    let s₁ := s'.set (·.afterReading)
    have hafter : Tracks i s s₁ := (htracks i).trans (.frame rfl rfl rfl rfl rfl)
    have hclock : runOp act Manager.clock s' = (.ok s'.engine.clock.now, s₁) := rfl
    have hofExcept : runOp act (Program.ofExcept (change r s'.engine.clock.now)) s₁ =
        (change r s'.engine.clock.now, s₁) := rfl
    simp only [runOp_bind, hclock, hofExcept]
    cases hchange : change r s'.engine.clock.now with
    | error f => exact .failed hafter
    | ok p =>
      obtain ⟨a, changed⟩ := p
      cases changed with
      | none =>
        have hdone : Applied change id i s (.ok a, ⟨s₁.engine, s₁.operations⟩) :=
          .done _ hafter hread hchange rfl
        exact hdone
      | some r' =>
        have hcalm₁ : s₁.engine.Undisturbed := hcalm
        have hupdate : runOp act (Manager.update r') s₁ = within (·.updateNow r') s₁ := by
          change within (Engine.runOp act.bare (Manager.update r')) s₁ = _
          rw [within, Engine.runOp_update _ hcalm₁]
          rfl
        simp only [runOp_bind, hupdate, within]
        cases hwrite : s₁.engine.updateNow r' with
        | mk o e' =>
          cases o with
          | error f =>
            have hsame : ({ s₁ with engine := e' } : Chronicle) = s₁ := by
              rw [Engine.updateNow_eq_error hwrite]
            simp only [hsame]
            exact .failed hafter
          | ok u =>
            have hdone : Applied change id i s (.ok a, ⟨e', s₁.operations⟩) :=
              .done _ hafter hread hchange hwrite
            exact hdone

/-- An operation with its effect: all of them but the one that ends the session. -/
theorem applied_serve (id i : Id) (ctx : Context) {c : Call} (hstop : c ≠ .stop) :
    Applied c.effect id i s (runOp act (Manager.serve id ctx c) s) := by
  cases c with
  | stop => exact absurd rfl hstop
  | setTimeout limit => exact applied_mutate hact hreg id i ctx _
  | touch => exact applied_mutate hact hreg id i ctx _
  | remove key => exact applied_mutate hact hreg id i ctx _
  | set key value =>
    by_cases hvalue : value = .absent
    · subst hvalue
      have hremoved : Applied (Call.remove key).effect id i s
          (runOp act (Manager.serve id ctx (.remove key)) s) := applied_mutate hact hreg id i ctx _
      have heffect : (Call.set key .absent).effect =
          fun r now => ((Call.remove key).effect r now).map fun p => ((), p.2) :=
        funext fun r => funext fun now => Call.effect_erasure key r now
      rw [heffect, runOp, Manager.run_serve_erasure]
      exact hremoved.map fun _ => ()
    · rw [Manager.serve_set id ctx hvalue]
      exact applied_mutate hact hreg id i ctx _
  | checkValid => exact applied_answer hact hreg id i ctx fun _ => ()
  | getStart => exact applied_answer hact hreg id i ctx (·.start)
  | getLastAccess => exact applied_answer hact hreg id i ctx (·.lastAccess)
  | getHost => exact applied_answer hact hreg id i ctx (·.host)
  | getTimeout => exact applied_answer hact hreg id i ctx (·.timeout)
  | keys => exact applied_answer hact hreg id i ctx (·.attributes.keys)
  | get key => exact applied_answer hact hreg id i ctx (·.attributes.get? key)

end

/-! ## Commands -/

/-- Past the manager sessions are dropped or not, but none is changed. -/
theorem tracks_performStore {c : StoreCommand} (hplain : (Command.store c).isPlain = true)
    (s : Chronicle) : Tracks i s (performWith act (.store c) s).2 := by
  cases c with
  | purge =>
    have hkept : Tracks i s (s.set (·.keep s.engine.store.purge.2)) := by
      refine .shrink fun r hr => ?_
      rw [Store.read_purge, Option.filter_eq_some_iff] at hr
      exact hr.1
    exact hkept
  | remove ref =>
    have hkept : Tracks i s (s.set (·.keep (s.engine.store.remove (s.engine.resolve ref)).2)) := by
      refine .shrink fun r hr => ?_
      rw [Store.read_remove] at hr
      split at hr
      · cases hr
      · exact hr
    exact hkept
  | change ref ops => cases hplain
  | put d => cases hplain
  | _ => exact .frame rfl rfl rfl rfl rfl

theorem tracks_listen {l : Listener Command} (hl : l.Orderly fun _ => True) (s : Chronicle) :
    Tracks i s (performWith act (.listen l) s).2 := by
  intro hreg
  have hleads : Engine.Leads _ s.engine (Engine.performWith act.bare (.listen l) s.engine).2 :=
    Engine.leads_listen hl s.engine
  have hregular := hleads.regular hreg
  exact ⟨hregular, [], [], (List.append_nil _).symm, (List.append_nil _).symm, fun r hread _ =>
    ⟨r, hread, rfl⟩⟩

section

variable (hact : Faithful act)
include hact

theorem tracks_serve (id : Id) (ctx : Context) (c : Call) (s : Chronicle) :
    Tracks i s (serve act id ctx c s).2 := by
  apply Tracks.of_regular
  intro hreg
  by_cases hstop : c = .stop
  · subst hstop
    exact (tracks_conserving hact (Manager.conserving_stop id ctx) s).trans (.noted_stop _ _)
  · exact (applied_serve hact hreg id i ctx hstop).noted

theorem tracks_performHandle (name : Text) (h : Handle) (c : HandleCommand) (s : Chronicle) :
    Tracks i s (performHandle act name h c s).2 := by
  have hkeeps : (client act name h).Keeps (Tracks i) :=
    { refl := .refl
      trans := .trans
      call := fun c id ctx s => tracks_serve hact id ctx c s
      setHandle := fun _ _ => .frame rfl rfl rfl rfl rfl
      note := fun _ _ _ => .frame rfl rfl rfl rfl rfl }
  cases c with
  | call c => exact hkeeps.perform c s
  | isValid => exact hkeeps.isValid s
  | _ => exact .refl s

theorem tracks_awaitSweep (s : Chronicle) : Tracks i s (awaitSweep act s).2 := by
  unfold awaitSweep
  split
  · exact .refl s
  · rename_i b _
    have hbefore : Tracks i s (s.set fun e => { e with background := b }) := .frame rfl rfl rfl rfl rfl
    have hswept := hbefore.trans (tracks_conserving hact Manager.conserving_sweep _)
    exact hswept.trans (.frame rfl rfl rfl rfl rfl)

theorem tracks_startHandle (name : Text) (host : Option Text) (ctx : Context) (s : Chronicle) :
    Tracks i s (performWith act (.startHandle name host ctx) s).2 := by
  have hstart := tracks_conserving (i := i) hact (Manager.conserving_start (host <|> ctx.host)) s
  unfold performWith
  simp only
  split
  · rename_i heq
    rwa [heq] at hstart
  · rename_i heq
    rw [heq] at hstart
    split
    · exact hstart
    · exact hstart.trans (.frame rfl rfl rfl rfl rfl)

/-- What is orderly tracks every session, whatever it is. -/
theorem tracks_performWith {c : Command} (hc : c.Orderly fun _ => True) (s : Chronicle) :
    Tracks i s (performWith act c s).2 := by
  have hprogram : ∀ {α : Type} {p : Manager.Op α}, Manager.Conserving none p →
      Tracks i s (runOp act p s).2 := fun hp => tracks_conserving hact hp s
  cases hc with
  | listen _ hl => exact tracks_listen hl s
  | plain hplain _ =>
    cases c with
    | start host => exact hprogram (Manager.conserving_start host)
    | call c r ctx => exact tracks_serve hact (s.engine.resolve r) ctx c s
    | isValid r ctx => exact hprogram (Manager.conserving_isValid _ ctx)
    | validate r ctx => exact hprogram (Manager.conserving_validateSession _ ctx)
    | getSession r ctx => exact hprogram (Manager.conserving_getSession _ ctx)
    | lookup r ctx => exact hprogram (Manager.conserving_lookup _ ctx)
    | sweep => exact hprogram Manager.conserving_sweep
    | awaitSweep => exact tracks_awaitSweep hact s
    | store c => exact tracks_performStore hplain s
    | startHandle name host ctx => exact tracks_startHandle hact name host ctx s
    | handle name c =>
      unfold performWith
      simp only
      split
      · exact .refl s
      · exact tracks_performHandle hact name _ c s
    | listen l => cases hplain
    | hook point n reaction => cases hplain
    | setInterval t =>
      change Tracks i s (within (Engine.performWith act.bare (.setInterval t)) s).2
      unfold within Engine.performWith
      simp only
      split <;> exact .frame rfl rfl rfl rfl rfl
    | setTimer name kind =>
      change Tracks i s (within (Engine.performWith act.bare (.setTimer name kind)) s).2
      unfold within Engine.performWith
      simp only
      split <;> exact .frame rfl rfl rfl rfl rfl
    | bind name r ctx =>
      change Tracks i s (within (Engine.performWith act.bare (.bind name r ctx)) s).2
      unfold within Engine.performWith
      simp only
      split <;> exact .frame rfl rfl rfl rfl rfl
    | unlisten name =>
      change Tracks i s (within (Engine.performWith act.bare (.unlisten name)) s).2
      unfold within Engine.performWith
      simp only
      cases s.engine.registry.named? name <;> exact .frame rfl rfl rfl rfl rfl
    | _ => exact .frame rfl rfl rfl rfl rfl

end

/-- The same with listeners that act inside of each other, to any depth. -/
theorem tracks_perform (n : Nat) {c : Command} (hc : c.Orderly fun _ => True) (s : Chronicle) :
    Tracks i s (perform n c s).2 := by
  induction n generalizing i c s with
  | zero =>
    have hidle : Faithful fun _ s => (.ok (.answer .done), s) :=
      ⟨fun _ _ => rfl, fun _ s => .refl s⟩
    exact tracks_performWith hidle hc s
  | succ n ih =>
    have hfaithful : Faithful (perform n) := ⟨blind_perform n, fun hc s => ih hc s⟩
    exact tracks_performWith hfaithful hc s

theorem tracks_after (n : Nat) {cs : List Command} (hcs : ∀ c ∈ cs, c.Orderly fun _ => True)
    (s : Chronicle) : Tracks i s (after n cs s) := by
  induction cs generalizing s with
  | nil => exact .refl s
  | cons c cs ih =>
    have hrest := ih (fun c' h => hcs c' (List.mem_cons_of_mem c h)) (perform n c s).2
    exact (tracks_perform n (hcs c List.mem_cons_self) s).trans hrest

end Chronicle
end Sessions
