import Sessions.Proofs.Engine.Passage
import Sessions.Proofs.Engine.Tracking
import Sessions.Proofs.Manager.Failure

/-!
# Sessions.Proofs.Manager.Refinement

The operations by id that change a session, next to the mutators of its record: what the manager does to a
valid session is what the mutator of that name does to the record, with the fault, the answer and the new
record taken over as they are.

* `Engine.Refines`: an operation is a mutator of the record, written back.
* `Engine.refines_of_change`, `Engine.refines_of_stop`: all of them are, whatever the listeners do.
* `Engine.mutators_refine_record`: the whole, with what it means for the attributes in the long run.
* `Engine.mutators_in_the_way`: a timer that refuses, and a listener that does something of its own.
-/

namespace Sessions
namespace Engine

variable {act : Act} {e e' m : Engine} {id : Id} {ctx : Context} {r : Record} {f : Fault}

/-- An operation answers what a mutator of the record answers, and fails where that one fails. The mutated
record is written over the old one, unless nothing was there to be removed; a stop is then announced, and
what its listeners do comes on top. -/
structure Refines (act : Act) (e : Engine) (c : Call) (r : Record)
    (outcome : Except Fault (c.Result × Record)) (o : Except Fault c.Result) (e' : Engine) : Prop where
  answer : o = outcome.map (·.1)
  failed : ∀ f, outcome = .error f → e'.store = e.store
  written : ∀ a r', outcome = .ok (a, r') → ∃ e₁ : Engine,
    e₁.store = (if c.Idle r then e.store else e.store.rewrite r') ∧ e₁.registry = e.registry ∧
      e' = if c = .stop then announce act .stop r' e₁ else e₁
  idle : ∀ a r', outcome = .ok (a, r') → c.Idle r → r' = r
  replaced : c ≠ .stop ∨ e.Passive → ∀ a r', outcome = .ok (a, r') →
    ∀ i, e'.store.read i = if i = r.id then some r' else e.store.read i

theorem Refines.of_error {c : Call} (h : e'.store = e.store) :
    Refines act e c r (.error f) (.error f) e' where
  answer := rfl
  failed _ _ := h
  written _ _ := nofun
  idle _ _ := nofun
  replaced _ _ _ := nofun

theorem Refines.of_ok {c : Call} {a : c.Result} {r' : Record} (hread : e.store.read r.id = some r)
    (hid : r'.id = r.id) (hidle : c.Idle r → r' = r)
    (hstore : m.store = if c.Idle r then e.store else e.store.rewrite r')
    (hregistry : m.registry = e.registry)
    (htold : e' = if c = .stop then announce act .stop r' m else m) :
    Refines act e c r (.ok (a, r')) (.ok a) e' where
  answer := rfl
  failed _ := nofun
  written := by
    rintro _ _ ⟨⟩
    exact ⟨m, hstore, hregistry, htold⟩
  idle := by
    rintro _ _ ⟨⟩
    exact hidle
  replaced := by
    rintro hquiet _ _ ⟨⟩ i
    have hstored : e'.store = m.store := by
      by_cases hstop : c = .stop
      · have hpassive : m.Passive := by
          rcases hquiet with hne | hpassive
          · exact absurd hstop hne
          · rwa [Passive, hregistry]
        obtain ⟨g, log, hannounced, _⟩ := announce_of_passive act hpassive .stop r'
        rw [htold, if_pos hstop, hannounced]
      · rw [htold, if_neg hstop]
    rw [hstored, hstore]
    by_cases hi : c.Idle r
    · rw [if_pos hi, hidle hi]
      by_cases hir : i = r.id
      · rw [if_pos hir, hir, hread]
      · rw [if_neg hir]
    · rw [if_neg hi, Store.read_rewrite, hid]

section

variable (hcalm : m.disturbance = .calm) (hread : m.store.read id = some r)
variable (hlive : r.isTerminal = false)
include hcalm hread hlive

variable (hstore : m.store = e.store) (hregistry : m.registry = e.registry)
variable (hsession : runOp act (Manager.getSession id ctx) e = (.ok r, m))
include hstore hregistry hsession

theorem refines_of_change {c : Call} {change : Record → Timestamp → Except Fault (c.Result × Record)}
    (hmutator : c.mutator? = some change) (hstop : c ≠ .stop) :
    Refines act e c r (change r m.clock.now) (runOp act (Manager.serve id ctx c) e).1
      (runOp act (Manager.serve id ctx c) e).2 := by
  have hchanges : c.mutator? ≠ none := by simp [hmutator]
  have hstored : e.store.read r.id = some r := by
    rw [← hstore, Roster.id_of_get? hread]
    exact hread
  rw [runOp_serve_of_session hchanges hstop (undisturbed_of_calm hcalm) hsession,
    Call.effect_of_mutator hmutator]
  cases hchange : change r m.clock.now with
  | error f => exact .of_error hstore
  | ok p =>
    obtain ⟨a, r'⟩ := p
    by_cases hidle : c.Idle r
    · obtain rfl := Call.eq_of_idle hmutator hidle hchange
      simp only [Except.map, if_pos hidle, writing]
      refine .of_ok (m := m.afterReading) hstored rfl (fun _ => rfl) ?_ hregistry (if_neg hstop).symm
      rw [if_pos hidle]
      exact hstore
    · have hwritten : c.written r m.clock.now = some r' := by
        rw [Call.written, Call.effect_of_mutator hmutator, hchange]
        simp only [Except.map, if_neg hidle]
      have hid : r'.id = r.id := (Call.evolves_of_written hwritten).id
      simp only [Except.map, if_neg hidle, writing,
        updateNow_of_written (e := m.afterReading) hcalm hread hlive hwritten]
      refine .of_ok (m := m.afterReading.keep (m.store.rewrite r')) hstored hid
        (fun h => absurd h hidle) ?_ hregistry (if_neg hstop).symm
      rw [if_neg hidle, ← hstore]
      rfl

theorem refines_of_stop :
    Refines act e .stop r ((r.stop m.clock.now).map ((), ·))
      (runOp act (Manager.serve id ctx .stop) e).1 (runOp act (Manager.serve id ctx .stop) e).2 := by
  let stopped := { r with stopTime := some m.clock.now }.advance m.clock.now
  have hstopped : r.stop m.clock.now = .ok stopped := Record.stop_of_live hlive
  have hstored : e.store.read r.id = some r := by
    rw [← hstore, Roster.id_of_get? hread]
    exact hread
  have hwritten : Call.stop.written r m.clock.now = some stopped := by
    rw [Call.written, Call.effect, hstopped]
    rfl
  have hidle : ¬Call.stop.Idle r := fun h => h
  have hnow := runOp_stopNow_of_some act (undisturbed_of_calm hcalm) hread
  simp only [hstopped, updateNow_of_written (e := m.afterReading) hcalm hread hlive hwritten] at hnow
  have hstop : runOp act (Manager.serve id ctx .stop) e = _ := runOp_stop_of_session hsession
  simp only [hnow] at hstop
  rw [hstop, hstopped]
  refine .of_ok (c := .stop) hstored (Call.evolves_of_written hwritten).id False.elim ?_ ?_
    (if_pos rfl).symm
  · rw [if_neg hidle, ← hstore]
    rfl
  · exact hregistry

end

/-- **Refinement of the record.** On an undisturbed store, with any listeners, and behind a background that
does not refuse to go on, an operation that changes a valid session is the mutator of its record, taken at the
second reading of the clock and written back; if the background refuses, the operation fails for that reason
and leaves everything as it was. To write the explicit "no value" is to remove. An operation that changes
nothing answers what the record has.

Hence, over any run in which the session stays in the store, the operations on it answer as a finite map does
to which the successful ones are written, and none is lost: those of the run, those of handles, and those that
listeners ask for in between. -/
theorem mutators_refine_record {e : Engine} {id : Id} {r : Record} (hid : id ≠ [])
    (hcalm : e.disturbance = .calm) (hread : e.store.read id = some r)
    (hnow : r.validity e.clock.now = .valid) :
    (∀ (act : Act) (ctx : Context) (c : Call) change, c.mutator? = some change →
      (∀ f, e.ensureBackground.1 = .error f →
        (runOp act (Manager.serve id ctx c) e).1 = .error f ∧
          Untouched e (runOp act (Manager.serve id ctx c) e).2) ∧
      (e.ensureBackground.1 = .ok () →
        Refines act e c r (change r e.clock.read.2.now) (runOp act (Manager.serve id ctx c) e).1
          (runOp act (Manager.serve id ctx c) e).2)) ∧
    (∀ (act : Act) (ctx : Context) (key : Text),
      runOp act (Manager.serve id ctx (.set key .absent)) e =
        ((runOp act (Manager.serve id ctx (.remove key)) e).1.map fun _ => (),
          (runOp act (Manager.serve id ctx (.remove key)) e).2)) ∧
    (∀ (act : Act) (ctx : Context) (c : Call), c.mutator? = none → e.ensureBackground.1 = .ok () →
      ∃ a, (runOp act (Manager.serve id ctx c) e).1 = .ok a ∧ c.Reads a r.mapping ∧
        Untouched e (runOp act (Manager.serve id ctx c) e).2) ∧
    ∀ (n : Nat) (cs : List Command), (∀ ear ∈ e.registry.ears, ear.listener.Orderly fun _ => True) →
      (∀ c ∈ cs, c.Orderly fun _ => True) →
      (∀ s ∈ e.contentsSince (after n cs e), s.contains id = true) →
      (Chronicle.after n cs ⟨e, []⟩).engine = after n cs e ∧
      ∃ r', (after n cs e).store.read id = some r' ∧
        Operation.Follows r.mapping ((Chronicle.after n cs ⟨e, []⟩).operations.filter (·.id = id))
          r'.mapping := by
  have hlive := Record.isTerminal_of_validity (Or.inl hnow)
  refine ⟨fun act ctx c change hmutator => ⟨fun f hf => ?_, fun hok => ?_⟩,
    fun act ctx key => Manager.run_serve_erasure _ id ctx key e, fun act ctx c hreading hok => ?_,
    fun n cs hears hcs hstays => ?_⟩
  · have hens : e.ensureBackground = (.error f, e.ensureBackground.2) := Prod.ext hf rfl
    rw [runOp_serve_of_error (runOp_getSession_of_ensure_error hid hens) c]
    exact ⟨rfl, untouched_of_ensure hens⟩
  · have hens : e.ensureBackground = (.ok (), e.ensureBackground.2) := Prod.ext hok rfl
    have hsession := runOp_getSession_of_valid act ctx hid hcalm hens hread hnow
    by_cases hstop : c = .stop
    · subst hstop
      cases hmutator
      exact refines_of_stop (e := e) (m := e.ensureBackground.2.afterReading) hcalm hread hlive
        rfl rfl hsession
    · exact refines_of_change (e := e) (m := e.ensureBackground.2.afterReading) hcalm hread hlive
        rfl rfl hsession hmutator hstop
  · have hens : e.ensureBackground = (.ok (), e.ensureBackground.2) := Prod.ext hok rfl
    have hsession := runOp_getSession_of_valid act ctx hid hcalm hens hread hnow
    obtain ⟨a, heffect, hrun⟩ := runOp_serve_of_reading hreading e.clock.now hsession
    rw [hrun]
    exact ⟨a, rfl, Call.reads_of_effect heffect, rfl, rfl, rfl⟩
  · have hengine := Chronicle.engine_after n cs ⟨e, []⟩
    obtain ⟨_, done, added, hdone, hadded, hmapping⟩ :=
      Chronicle.tracks_after (i := id) n hcs ⟨e, []⟩ ⟨undisturbed_of_calm hcalm, hears⟩
    rw [hengine] at hadded hmapping
    refine ⟨hengine, ?_⟩
    rw [hdone, List.nil_append]
    refine hmapping r hread fun content hcontent => hstays content ?_
    rw [contentsSince, hadded, List.drop_left]
    exact hcontent

/-- A listener that writes an attribute of the first session whenever a session starts. -/
def scribe : Listener Command where
  name := "scribe"
  hears ev := ev = .start
  react _ _ := ⟨[.call (.set "seen" (.bool true)) (.started 1 []) ⟨none⟩], none⟩

theorem orderly_scribe : (Command.listen scribe).Orderly fun _ => True :=
  .listen trivial fun _ _ => Command.orderly_of_isPlain rfl

/-- An attribute is written and removed again, and in between a listener writes another one. -/
theorem mutators_refine_record_beside_scribe :
    ∃ (e : Engine) (r : Record) (cs : List Command),
      e = after 2 [.start none, .listen scribe]
        (blank {} (.still 7) (fun n => (0, n.toUInt64)) .silent) ∧
      r = Record.new (Id.ofWords (0, 0)) 7 none 1800000 ∧
      cs = [.call (.set "k" (.int 1)) (.started 1 []) ⟨none⟩, .start none,
        .call (.remove "k") (.started 1 []) ⟨none⟩, .call .keys (.started 1 []) ⟨none⟩] ∧
      Refines (perform 1) e (.set "k" (.int 1)) r ((r.set "k" (.int 1) 7).map ((), ·))
        (runOp (perform 1) (Manager.serve r.id ⟨none⟩ (.set "k" (.int 1))) e).1
        (runOp (perform 1) (Manager.serve r.id ⟨none⟩ (.set "k" (.int 1))) e).2 ∧
      (Chronicle.after 2 cs ⟨e, []⟩).operations.map (·.call) =
        [.set "k" (.int 1), .set "seen" (.bool true), .remove "k", .keys] ∧
      ((after 2 cs e).store.read r.id).map (·.mapping "k") = some none ∧
      ((after 2 cs e).store.read r.id).map (·.mapping "seen") = some (some (.bool true)) ∧
      ∃ r', (after 2 cs e).store.read r.id = some r' ∧ Operation.Follows r.mapping
        ((Chronicle.after 2 cs ⟨e, []⟩).operations.filter (·.id = r.id)) r'.mapping := by
  let e := after 2 [.start none, .listen scribe]
    (blank {} (.still 7) (fun n => (0, n.toUInt64)) .silent)
  let r := Record.new (Id.ofWords (0, 0)) 7 none 1800000
  let cs : List Command := [.call (.set "k" (.int 1)) (.started 1 []) ⟨none⟩, .start none,
    .call (.remove "k") (.started 1 []) ⟨none⟩, .call .keys (.started 1 []) ⟨none⟩]
  have hcs : ∀ c ∈ cs, c.Orderly fun _ => True := Command.orderly_of_isPlain rfl
  have hbegin : ∀ c ∈ [Command.start none, .listen scribe], c.Orderly fun _ => True := by
    intro c hc
    rcases List.mem_pair.1 hc with rfl | rfl
    · exact .plain rfl trivial
    · exact orderly_scribe
  have hreg : e.Regular fun _ => True :=
    (after_leads 2 hbegin _).regular ⟨rfl, fun ear hear => absurd hear List.not_mem_nil⟩
  have hrefine := @mutators_refine_record e r.id r (by decide) (eq_calm (by decide +kernel))
    (by decide +kernel) (by decide +kernel)
  have hset := (hrefine.1 (perform 1) ⟨none⟩ (.set "k" (.int 1)) _ rfl).2 (by decide +kernel)
  have hclock : e.clock.read.2.now = 7 := by decide +kernel
  rw [hclock] at hset
  exact ⟨e, r, cs, rfl, rfl, rfl, hset, by decide +kernel, by decide +kernel, by decide +kernel,
    (hrefine.2.2.2 2 cs hreg.ears hcs (by decide +kernel)).2⟩

/-- A listener that starts a session for every one that is stopped. -/
def starter : Listener Command where
  name := "starter"
  hears ev := ev = .stop
  react _ _ := ⟨[.start none], none⟩

/-- A valid session cannot be touched behind a timer that refuses to be switched on, though its record can.
And where a listener starts a session when one is stopped, the store has one record more. -/
theorem mutators_in_the_way :
    ∃ (e₀ e e' : Engine) (r : Record),
      Engine.new {} (.still 7) (fun n => (0, n.toUInt64)) .silent = .ok e₀ ∧
      e = after 1 [.start none, .setTimer (some "F") (.standIn .onFails)] e₀ ∧
      e' = after 1 [.start none, .listen starter] e₀ ∧
      r.id ≠ [] ∧ r.touch e.clock.read.2.now = .ok r ∧
      e.disturbance = .calm ∧ e.store.read r.id = some r ∧ r.validity e.clock.now = .valid ∧
      (runOp (perform 0) (Manager.serve r.id ⟨none⟩ .touch) e).1 = .error (.foreign "no threads left") ∧
      e'.disturbance = .calm ∧ e'.store.read r.id = some r ∧ r.validity e'.clock.now = .valid ∧
      (runOp (perform 0) (Manager.serve r.id ⟨none⟩ .stop) e').1 = .ok () ∧
      e'.store.read (Id.ofWords (0, 1)) = none ∧
      (runOp (perform 0) (Manager.serve r.id ⟨none⟩ .stop) e').2.store.read (Id.ofWords (0, 1)) =
        some (Record.new (Id.ofWords (0, 1)) 7 none 1800000) := by
  let e := after 1 [.start none, .setTimer (some "F") (.standIn .onFails)]
    (blank {} (.still 7) (fun n => (0, n.toUInt64)) .silent)
  let e' := after 1 [.start none, .listen starter]
    (blank {} (.still 7) (fun n => (0, n.toUInt64)) .silent)
  let r := Record.new (Id.ofWords (0, 0)) 7 none 1800000
  exact ⟨_, e, e', r, rfl, rfl, rfl, by decide, by decide +kernel, eq_calm (by decide +kernel),
    by decide +kernel, by decide +kernel, by decide +kernel, eq_calm (by decide +kernel),
    by decide +kernel, by decide +kernel, by decide +kernel, by decide +kernel, by decide +kernel⟩

end Engine
end Sessions
