import Sessions.Proofs.Engine.Background
import Sessions.Proofs.Engine.Conduct

/-!
# Sessions.Proofs.Manager.Lookup

What an access answers and what it leaves behind, for every content of the store, on a store that is
not disturbed and with listeners that ask for nothing.

* `Engine.Passive`: listeners may fail, but carry out no commands. `announce_of_passive`: then an
  announcement is noted in the journal, and beyond that only the listeners and the log know of it.
* `Store.validated`: the store behind the validation of a record. `Engine.judged`: the engine.
* `Validated`, `Superseded`: what an access does to an engine by marking a session, and by starting one
  in its place.
* `lookup_contract`: the whole, given that the background does not refuse.
-/

namespace Sessions

namespace Store

/-- The store behind the validation of a record: a record that is timed out is marked. -/
def validated (s : Store) (r : Record) (now : Timestamp) : Store :=
  if r.validity now = .timedOut then
    { s with records := s.records.put r.marked, updates := s.updates + 1 }
  else s

theorem validated_of_timedOut {s : Store} {r : Record} {now : Timestamp}
    (h : r.validity now = .timedOut) : s.validated r now = s.rewrite r.marked := if_pos h

theorem validated_of_not_timedOut {s : Store} {r : Record} {now : Timestamp}
    (h : r.validity now ≠ .timedOut) : s.validated r now = s := if_neg h

theorem read_validated (s : Store) (r : Record) (now : Timestamp) (id : Id) :
    (s.validated r now).read id =
      if id = r.id ∧ r.validity now = .timedOut then some r.marked else s.read id := by
  by_cases hnow : r.validity now = .timedOut
  · rw [validated_of_timedOut hnow, read_rewrite, Record.marked_id]
    simp only [hnow, and_true]
  · rw [validated_of_not_timedOut hnow, if_neg fun h => hnow h.2]

theorem exists_terminal_validated {s : Store} {r : Record} {now : Timestamp} {id : Id}
    (hread : s.read id = some r) (hnow : r.validity now ≠ .valid) :
    ∃ v, (s.validated r now).read id = some v ∧ v.isTerminal = true := by
  have hid : r.id = id := Roster.id_of_get? hread
  rw [read_validated]
  by_cases htimedOut : r.validity now = .timedOut
  · rw [if_pos ⟨hid.symm, htimedOut⟩]
    exact ⟨r.marked, rfl, r.marked_isTerminal⟩
  · rw [if_neg fun h => htimedOut h.2]
    refine ⟨r, hread, ?_⟩
    cases hend : r.isTerminal with
    | true => rfl
    | false =>
      obtain ⟨hstop, hexp⟩ := Record.isTerminal_eq_false_iff.1 hend
      exfalso
      unfold Record.validity at hnow htimedOut
      simp only [hstop, hexp] at hnow htimedOut
      split at hnow <;> simp_all

end Store

namespace Engine

variable {act : Act} {e e' e'' : Engine} {id : Id} {ctx : Context} {r : Record} {f : Fault}

/-! ## Listeners that ask for nothing -/

/-- No listener carries out commands. It may fail all the same. -/
def Passive (e : Engine) : Prop :=
  ∀ ear ∈ e.registry.ears, ∀ ev n, (ear.listener.react ev n).actions = []

theorem passive_of_isEmpty (h : e.registry.ears.isEmpty = true) : e.Passive := by
  intro ear hear
  rw [List.isEmpty_iff.1 h] at hear
  exact absurd hear List.not_mem_nil

/-- The engines differ by what listeners were told, and by the log. -/
structure Heard (e e' : Engine) : Prop where
  same : ∃ g log, e' = { e with registry := g, log }
  passive : e.Passive → e'.Passive

namespace Heard

theorem refl (e : Engine) : Heard e e := ⟨⟨e.registry, e.log, rfl⟩, id⟩

theorem trans (h : Heard e e') (h' : Heard e' e'') : Heard e e'' := by
  obtain ⟨⟨g, log, rfl⟩, hpassive⟩ := h
  obtain ⟨⟨g', log', rfl⟩, hpassive'⟩ := h'
  exact ⟨⟨g', log', rfl⟩, fun hp => hpassive' (hpassive hp)⟩

theorem hear (e : Engine) (i : ListenerId) (ev : Event) (name : Text) (r : Record) :
    Heard e { e with registry := (e.registry.hear i ev).beginDelivery name ev r } := by
  refine ⟨⟨_, e.log, rfl⟩, fun hp ear hear ev' n => ?_⟩
  have hmodified : ear ∈ (e.registry.hear i ev).ears := hear
  obtain ⟨ear', hmem, hsame⟩ := mem_ears_of_modify (by intro _; rfl) hmodified
  rw [← hsame]
  exact hp ear' hmem ev' n

end Heard

/-- No action is good: listeners that ask for nothing take none. -/
theorem heard_announce (act : Act) (hp : e.Passive) (ev : Event) (r : Record) :
    Heard e ((stage act).announce ev r e) := by
  have hkeeps : (stage act).Keeps (fun _ => False) (fun e e' => e.Passive → Heard e e') :=
    { refl := fun e _ => .refl e
      trans := fun h h' hp => (h hp).trans (h' ((h hp).passive hp))
      of_tame := by
        intro e e' h hp
        refine h (fun ear hear ev n c hc => ?_) hp
        rw [hp ear hear ev n] at hc
        cases hc
      hear := fun i ev name r e _ => .hear e i ev name r
      act := fun _ _ _ _ hgood => hgood.elim
      note := fun _ _ _ _ => ⟨⟨_, _, rfl⟩, fun hp => hp⟩ }
  exact hkeeps.announce ev r e hp

/-- An announcement is noted; beyond that, only listeners and the log know of it. -/
theorem announce_of_passive (act : Act) (hp : e.Passive) (ev : Event) (r : Record) :
    ∃ g log, announce act ev r e =
        { e with journal := e.journal ++ [.told ev r], registry := g, log } ∧
      (announce act ev r e).Passive := by
  have hp' : (e.enter (.told ev r)).Passive := hp
  have hheard : Heard (e.enter (.told ev r)) (announce act ev r e) := heard_announce act hp' ev r
  obtain ⟨⟨g, log, hsame⟩, hpassive⟩ := hheard
  exact ⟨g, log, hsame, hpassive hp'⟩

/-! ## What is announced -/

/-- The announcement that an entry of the journal tells. -/
def Entry.telling? : Entry → Option (Event × Record)
  | .stored _ => none
  | .told ev r => some (ev, r)

/-- Everything that was announced, in order. -/
def announced (e : Engine) : List (Event × Record) := e.journal.filterMap (·.telling?)

theorem announced_append {l : List Entry} (h : e'.journal = e.journal ++ l) :
    e'.announced = e.announced ++ l.filterMap (·.telling?) := by
  rw [announced, h, List.filterMap_append]
  rfl

/-! ## Marking -/

/-- A session was marked: that is stored, counted and announced. -/
def marking (act : Act) (e : Engine) (r : Record) : Engine :=
  announce act .expiration r.marked ((e.keep (e.store.rewrite r.marked)).counting .expired)

theorem marking_of_passive (act : Act) (hp : e.Passive) (r : Record) :
    ∃ g log, e.marking act r =
        { e with
          store := e.store.rewrite r.marked
          journal := e.journal ++
            [.stored (e.store.rewrite r.marked).records, .told .expiration r.marked]
          stats := e.stats.bump .expired
          registry := g
          log } ∧ (e.marking act r).Passive := by
  obtain ⟨g, log, hannounced, hp'⟩ := announce_of_passive act
    (e := (e.keep (e.store.rewrite r.marked)).counting .expired) hp .expiration r.marked
  refine ⟨g, log, ?_, hp'⟩
  rw [marking, hannounced]
  simp only [counting, keep, enter, List.append_assoc, List.cons_append, List.nil_append]

/-- An engine behind the validation of a record: the background was seen to, the time was read, and if
the record is timed out then it was marked. -/
def judged (act : Act) (e : Engine) (r : Record) : Engine :=
  let e' := e.ensureBackground.2.afterReading
  if r.validity e.clock.now = .timedOut then e'.marking act r else e'

theorem judged_of_timedOut (act : Act) (hens : e.ensureBackground = (.ok (), e'))
    (hnow : r.validity e.clock.now = .timedOut) :
    e.judged act r = e'.afterReading.marking act r := by
  rw [judged, if_pos hnow, hens]

theorem judged_of_not_timedOut (act : Act) (hens : e.ensureBackground = (.ok (), e'))
    (hnow : r.validity e.clock.now ≠ .timedOut) : e.judged act r = e'.afterReading := by
  rw [judged, if_neg hnow, hens]

/-! ## What an access does -/

/-- Neither the store, nor the journal, nor the counters changed. -/
structure Untouched (e e' : Engine) : Prop where
  store : e'.store = e.store
  journal : e'.journal = e.journal
  stats : e'.stats = e.stats

theorem Untouched.announced (h : Untouched e e') : e'.announced = e.announced := by
  rw [Engine.announced, h.journal, Engine.announced]

/-- What the journal says of the validation of a record. -/
def expiryEntries (s : Store) (r : Record) (now : Timestamp) : List Entry :=
  if r.validity now = .timedOut then
    [.stored (s.validated r now).records, .told .expiration r.marked]
  else []

/-- What was counted behind the validation of a record. -/
def expiryStats (s : Stats) (r : Record) (now : Timestamp) : Stats :=
  if r.validity now = .timedOut then s.bump .expired else s

/-- A record was validated: if it is timed out it was marked, counted and announced, and beyond that
nothing changed. -/
structure Validated (e e' : Engine) (r : Record) (now : Timestamp) : Prop where
  store : e'.store = e.store.validated r now
  journal : e'.journal = e.journal ++ expiryEntries e.store r now
  stats : e'.stats = expiryStats e.stats r now

/-- A record was validated, and a session was started in its place. -/
structure Superseded (e e' : Engine) (r : Record) (now : Timestamp) (fresh : Record) : Prop where
  store : ∃ lines, (e.store.validated r now).create fresh = .ok (e'.store, lines)
  journal : e'.journal = e.journal ++ expiryEntries e.store r now ++
    [.stored e'.store.records, .told .start fresh]
  stats : e'.stats = ((expiryStats e.stats r now).bump .started).bump .replaced

/-- What an access owes to its caller, once the background is seen to. The time is the first reading
that it takes; a session that it starts begins at the second one. -/
structure Contract (e : Engine) (id : Id) (ctx : Context) (o : Except Fault Manager.Finding)
    (e' : Engine) : Prop where
  found_iff : ∀ r, o = .ok (.found r) ↔
    e.store.read id = some r ∧ r.validity e.clock.now = .valid
  found : ∀ r, o = .ok (.found r) → Untouched e e'
  unknown_iff : (∃ why, o = .ok (.invalid id why) ∧ why.code? = some .unknownSession) ↔
    e.store.read id = none
  unknown : e.store.read id = none → o = .ok (.invalid id (.unknown id)) ∧ Untouched e e'
  ended : ∀ r, e.store.read id = some r → r.validity e.clock.now ≠ .valid →
    ∃ why code, r.validate e.clock.now = .error why ∧ why.code? = some code ∧
      code = (if r.isStopped then .stoppedSession else .expiredSession) ∧
      (e.autoCreate = false → o = .ok (.invalid id why) ∧ Validated e e' r e.clock.now) ∧
      (e.autoCreate = true → ∀ f, e.admission.check (r.host <|> ctx.host) = .error f →
        o = .error f ∧ Validated e e' r e.clock.now) ∧
      (e.autoCreate = true → e.admission.check (r.host <|> ctx.host) = .ok () →
        o = .ok (.replaced id e.draw.1 code) ∧
        Superseded e e' r e.clock.now
          (Record.new e.draw.1 e.clock.read.2.now (r.host <|> ctx.host) e.timeout))

/-! ## Validated engines -/

/-- A record was validated, and everything that a start depends on is as it was, but for the clock,
from which one reading was taken. -/
structure Poised (e e' : Engine) (r : Record) (now : Timestamp) : Prop where
  validated : Validated e e' r now
  clock : e'.clock = e.clock.read.2
  draw : e'.draw.1 = e.draw.1
  admission : e'.admission = e.admission
  timeout : e'.timeout = e.timeout
  autoCreate : e'.autoCreate = e.autoCreate
  disturbance : e'.disturbance = e.disturbance
  background : e'.background.ensure = (.ok (), e'.background, [])
  passive : e'.Passive

theorem ensureBackground_again (h : e.background.ensure = (.ok (), e.background, [])) :
    e.ensureBackground = (.ok (), e) := by
  unfold ensureBackground
  rw [h]
  rfl

theorem createNow_of_calm (hcalm : e.disturbance = .calm) {store : Store} {lines : List LogLine}
    (h : e.store.create r = .ok (store, lines)) :
    e.createNow r =
      (.ok (), ({ e with known := e.known ++ [r.id] }.keep store).noteAll lines) := by
  have hguard : Disturbance.guard e.disturbance.createFails "create" = .ok () := by
    rw [hcalm]
    rfl
  unfold createNow
  rw [hguard]
  simp only [h]

theorem updateNow_of_poisoned (h : r.id ∈ e.disturbance.poisoned) :
    e.updateNow r = (.error (Disturbance.fault "update"), e) := by
  have hguard : Disturbance.guard (e.disturbance.poisoned.contains r.id) "update" =
      .error (Disturbance.fault "update") := by
    rw [List.contains_iff_mem.2 h]
    rfl
  unfold updateNow
  rw [hguard]

theorem updateNow_of_not_poisoned (h : r.id ∉ e.disturbance.poisoned) {store : Store}
    (hupdate : e.store.update r = .ok store) : e.updateNow r = (.ok (), e.keep store) := by
  have hguard : Disturbance.guard (e.disturbance.poisoned.contains r.id) "update" = .ok () := by
    rw [Bool.eq_false_iff.2 fun hc => h (List.contains_iff_mem.1 hc)]
    rfl
  unfold updateNow
  rw [hguard]
  simp only [hupdate]

theorem updateNow_of_calm (hcalm : e.disturbance = .calm) {store : Store}
    (h : e.store.update r = .ok store) : e.updateNow r = (.ok (), e.keep store) := by
  refine updateNow_of_not_poisoned ?_ h
  rw [hcalm]
  exact List.not_mem_nil

theorem ensureBackground_eq_ok (h : e.ensureBackground = (.ok (), e')) :
    ∃ b lines, e.background.ensure = (.ok (), b, lines) ∧ e' = e.withBackground b lines := by
  unfold ensureBackground at h
  cases hens : e.background.ensure with
  | mk o rest =>
    obtain ⟨b, lines⟩ := rest
    rw [hens] at h
    simp only [Prod.mk.injEq] at h
    obtain ⟨rfl, rfl⟩ := h
    exact ⟨b, lines, rfl, rfl⟩

/-- With listeners that ask for nothing, all that a validation does is to mark the record. -/
theorem poised_judged (act : Act) (hpassive : e.Passive) (hens : e.ensureBackground = (.ok (), e'))
    (r : Record) : Poised e (e.judged act r) r e.clock.now := by
  obtain ⟨b, lines, hb, rfl⟩ := ensureBackground_eq_ok hens
  by_cases hnow : r.validity e.clock.now = .timedOut
  · obtain ⟨g, log, hmarking, hpassive'⟩ := marking_of_passive act
      (e := (e.withBackground b lines).afterReading) hpassive r
    rw [judged_of_timedOut act hens hnow, hmarking]
    rw [hmarking] at hpassive'
    refine ⟨⟨?_, ?_, ?_⟩, rfl, rfl, rfl, rfl, rfl, rfl, Background.ensure_again hb, hpassive'⟩
    · rw [Store.validated_of_timedOut hnow]
      rfl
    · rw [expiryEntries, if_pos hnow, Store.validated_of_timedOut hnow]
      rfl
    · rw [expiryStats, if_pos hnow]
      rfl
  · rw [judged_of_not_timedOut act hens hnow]
    refine ⟨⟨?_, ?_, ?_⟩, rfl, rfl, rfl, rfl, rfl, rfl, Background.ensure_again hb, hpassive⟩
    · rw [Store.validated_of_not_timedOut hnow]
      rfl
    · rw [expiryEntries, if_neg hnow, List.append_nil]
      rfl
    · rw [expiryStats, if_neg hnow]
      rfl

/-- A start in the place of an ended session goes through, unless the host is refused: where room
has to be made, the ended session itself can make it. -/
theorem start_of_poised (act : Act) {now : Timestamp} {host : Option Text} (h : Poised e e' r now)
    (hcalm : e.disturbance = .calm) (hread : e.store.read id = some r)
    (hnow : r.validity now ≠ .valid) (hfresh : e.store.read e.draw.1 = none)
    (hcheck : e.admission.check host = .ok ()) :
    ∃ e'', runOp act (Manager.start host) e' = (.ok e.draw.1, e'') ∧
      (∃ lines, (e.store.validated r now).create
        (Record.new e.draw.1 e.clock.read.2.now host e.timeout) = .ok (e''.store, lines)) ∧
      e''.journal = e.journal ++ expiryEntries e.store r now ++
        [.stored e''.store.records,
          .told .start (Record.new e.draw.1 e.clock.read.2.now host e.timeout)] ∧
      e''.stats = (expiryStats e.stats r now).bump .started ∧
      e''.clock = e.clock.read.2.read.2 := by
  have hundisturbed : e'.Undisturbed := undisturbed_of_calm (h.disturbance.trans hcalm)
  have hcheck' : e'.admission.check host = .ok () := by rw [h.admission, hcheck]
  have hrecord : e'.fresh host = Record.new e.draw.1 e.clock.read.2.now host e.timeout := by
    rw [fresh, h.draw, h.clock, h.timeout]
  -- the fresh id is not that of the session itself, so it is new to the validated store as well
  have hnew : (e.store.validated r now).read e.draw.1 = none := by
    have hne : e.draw.1 ≠ r.id := by
      intro heq
      rw [heq, Roster.id_of_get? hread, hread] at hfresh
      cases hfresh
    rw [Store.read_validated, if_neg fun hc => hne hc.1]
    exact hfresh
  -- the session has ended in the validated store, so there is something to drop for room
  obtain ⟨v, hv, hend⟩ := Store.exists_terminal_validated hread hnow
  obtain ⟨store, lines, hcreate⟩ := Store.create_ok_of_terminal
    (r := Record.new e.draw.1 e.clock.read.2.now host e.timeout) hnew hv hend
  have hcalm' : e'.supplied.disturbance = .calm := h.disturbance.trans hcalm
  have hcreate' : e'.supplied.store.create (e'.fresh host) = .ok (store, lines) := by
    have hsame : e'.supplied.store = e'.store := rfl
    rw [hsame, h.validated.store, hrecord, hcreate]
  rw [runOp_start_of_check_ok hundisturbed (ensureBackground_again h.background) hcheck',
    createNow_of_calm hcalm' hcreate']
  simp only [h.draw]
  refine ⟨_, rfl, ?_⟩
  rw [launched]
  obtain ⟨g, log, hannounced, _⟩ := announce_of_passive act
    (e := ((({ e'.supplied with known := e'.supplied.known ++ [(e'.fresh host).id] }.keep
      store).noteAll lines).counting .started).note .debug ("Started session " ++
        (e'.fresh host).id ++ " for host " ++ Manager.hostText (e'.fresh host).host))
    h.passive .start (e'.fresh host)
  rw [hannounced, hrecord]
  refine ⟨⟨lines, hcreate⟩, ?_, ?_, ?_⟩
  · change e'.journal ++ [_] ++ [_] = _
    rw [h.validated.journal, List.append_assoc]
    rfl
  · change e'.stats.bump .started = _
    rw [h.validated.stats]
  · change e'.clock.read.2 = _
    rw [h.clock]

theorem refused_of_poised (act : Act) {e₂ : Engine} {now : Timestamp} {why : Fault}
    (h : Poised e e₂ r now) (hauto : e.autoCreate = true)
    (hcheck : e.admission.check (r.host <|> ctx.host) = .error f) :
    runOp act (Manager.replaceOrReport id r.host ctx why) e₂ = (.error f, e₂) := by
  have hauto' : e₂.autoCreate = true := by rw [h.autoCreate, hauto]
  have hcheck' : e₂.admission.check (r.host <|> ctx.host) = .error f := by
    rw [h.admission, hcheck]
  exact runOp_replace_of_error hauto'
    (runOp_start_of_check_error (ensureBackground_again h.background) hcheck')

theorem replaced_of_poised (act : Act) {e₂ : Engine} {now : Timestamp} {why : Fault} {code : Code}
    (h : Poised e e₂ r now) (hcalm : e.disturbance = .calm) (hread : e.store.read id = some r)
    (hnow : r.validity now ≠ .valid) (hfresh : e.store.read e.draw.1 = none)
    (hauto : e.autoCreate = true) (hcheck : e.admission.check (r.host <|> ctx.host) = .ok ())
    (hcode : why.code? = some code) :
    ∃ e₃, runOp act (Manager.replaceOrReport id r.host ctx why) e₂ =
        (.ok (.replaced id e.draw.1 code), e₃) ∧
      Superseded e e₃ r now
        (Record.new e.draw.1 e.clock.read.2.now (r.host <|> ctx.host) e.timeout) ∧
      e₃.clock = e.clock.read.2.read.2 := by
  have hauto' : e₂.autoCreate = true := by rw [h.autoCreate, hauto]
  obtain ⟨e₃, hstart, hstore, hjournal, hstats, hclock⟩ :=
    start_of_poised act h hcalm hread hnow hfresh hcheck
  refine ⟨e₃.superseding id e.draw.1 why, ?_, ⟨hstore, hjournal, ?_⟩, hclock⟩
  · rw [runOp_replace_of_ok hauto' hstart, hcode]
    rfl
  · change e₃.stats.bump .replaced = _
    rw [hstats]

/-! ## The contract -/

/-- The fault that a record gives for not being valid, and its code. -/
theorem exists_reason {now : Timestamp} (hnow : r.validity now ≠ .valid) :
    ∃ why code, r.validate now = .error why ∧ why.code? = some code ∧
      code = if r.isStopped then .stoppedSession else .expiredSession := by
  unfold Record.validate
  cases hv : r.validity now with
  | valid => exact absurd hv hnow
  | timedOut =>
    have hlive := Record.isTerminal_of_validity (Or.inr hv)
    have hstopped : r.isStopped = false := by
      rw [Record.isStopped, (Record.isTerminal_eq_false_iff.1 hlive).1]
      rfl
    exact ⟨_, .expiredSession, rfl, rfl, by simp [hstopped]⟩
  | _ =>
    have hended : r.validity now = .stopped ∨ r.validity now = .expired := by simp [hv]
    obtain ⟨why, hwhy⟩ := Record.exists_endFault hended
    simp only [hwhy]
    unfold Record.endFault? at hwhy
    cases hstop : r.stopTime with
    | some t =>
      rw [hstop] at hwhy
      cases hwhy
      exact ⟨_, .stoppedSession, rfl, rfl, by simp [Record.isStopped, hstop]⟩
    | none =>
      simp only [hstop] at hwhy
      split at hwhy
      · cases hwhy
        exact ⟨_, .expiredSession, rfl, rfl, by simp [Record.isStopped, hstop]⟩
      · cases hwhy

/-- A look-up of a session that is timed out fails because the mark cannot be written, or goes on with the
session marked. -/
theorem runOp_lookup_of_marking (act : Act) (ctx : Context) (hid : id ≠ []) (hhooks : e.Undisturbed)
    (hens : e.ensureBackground = (.ok (), e')) (hread : e.store.read id = some r)
    (hnow : r.validity e.clock.now = .timedOut) :
    (∃ f, e'.afterReading.updateNow r.marked = (.error f, e'.afterReading) ∧
      runOp act (Manager.lookup id ctx) e = (.error f, e'.afterReading)) ∨
    e'.afterReading.updateNow r.marked =
        (.ok (), e'.afterReading.keep (e'.store.rewrite r.marked)) ∧
      runOp act (Manager.lookup id ctx) e = runOp act (Manager.replaceOrReport id r.host ctx
        (.expired id (.idle r.lastAccess e.clock.now r.timeout))) (e.judged act r) := by
  have hrid : r.id = id := Roster.id_of_get? hread
  have hjudged := judged_of_timedOut act hens hnow
  obtain ⟨b, lines, _, rfl⟩ := ensureBackground_eq_ok hens
  let e₁ := e.withBackground b lines
  have hhooks₁ : e₁.Undisturbed := hhooks
  have hlookup := @runOp_lookup_of_timedOut act _ _ _ ctx _ hid hens hhooks₁ hread hnow
  cases hupdate : e₁.afterReading.updateNow r.marked with
  | mk o e₂ =>
    rw [hupdate] at hlookup
    cases o with
    | error f =>
      obtain rfl := updateNow_eq_error hupdate
      exact .inl ⟨f, rfl, hlookup⟩
    | ok u =>
      -- what is marked is what was read, which is live
      obtain ⟨store, hstore, rfl⟩ := updateNow_eq_ok hupdate
      have hstored : e₁.afterReading.store.read r.marked.id = some r := by
        rw [Record.marked_id, hrid]
        exact hread
      have hlive := Record.isTerminal_of_validity (Or.inr hnow)
      rw [Store.update_ok_of_live hstored hlive] at hstore
      cases hstore
      rw [hjudged]
      exact .inr ⟨rfl, hlookup⟩

/-- The look-up of an ended session, or of one that is timed out, comes down to its replacement. -/
theorem runOp_lookup_of_invalid (act : Act) (ctx : Context) (hid : id ≠ [])
    (hcalm : e.disturbance = .calm) (hens : e.ensureBackground = (.ok (), e'))
    (hread : e.store.read id = some r) {why : Fault} (hwhy : r.validate e.clock.now = .error why) :
    runOp act (Manager.lookup id ctx) e =
      runOp act (Manager.replaceOrReport id r.host ctx why) (e.judged act r) := by
  obtain ⟨b, lines, _, he'⟩ := ensureBackground_eq_ok hens
  have hclock : e'.clock = e.clock := by rw [he']; rfl
  have hstore : e'.store = e.store := by rw [he']; rfl
  have hcalm' : e'.disturbance = .calm := by
    rw [he']
    exact hcalm
  have hundisturbed : e'.Undisturbed := undisturbed_of_calm hcalm'
  have hread' : e'.store.read id = some r := by rw [hstore, hread]
  have hrid : r.id = id := Roster.id_of_get? hread
  unfold Record.validate at hwhy
  cases hnow : r.validity e.clock.now with
  | valid =>
    rw [hnow] at hwhy
    cases hwhy
  | timedOut =>
    rw [hnow] at hwhy
    cases hwhy
    have hlive := Record.isTerminal_of_validity (Or.inr hnow)
    have hread'' : e'.afterReading.store.read r.marked.id = some r := by
      rw [Record.marked_id, hrid]
      exact hread'
    have hupdate := updateNow_of_calm (e := e'.afterReading) hcalm'
      (Store.update_ok_of_live hread'' hlive)
    have hnow' : r.validity e'.clock.now = .timedOut := by rw [hclock, hnow]
    rw [runOp_lookup_of_timedOut hid hens hundisturbed hread' hnow', hupdate,
      judged_of_timedOut act hens hnow, hclock, hrid]
    rfl
  | _ =>
    rw [hnow] at hwhy
    have hnot : r.validity e.clock.now ≠ .timedOut := by simp [hnow]
    have hended : r.validity e.clock.now = .stopped ∨ r.validity e.clock.now = .expired := by
      simp [hnow]
    obtain ⟨why', hend⟩ := Record.exists_endFault hended
    simp only [hend] at hwhy
    cases hwhy
    rw [runOp_lookup_of_ended hid hens hundisturbed hread' hend,
      judged_of_not_timedOut act hens hnot]

theorem contract_of_invalid (act : Act) (hid : id ≠ []) (hcalm : e.disturbance = .calm)
    (hpassive : e.Passive) (hens : e.ensureBackground = (.ok (), e'))
    (hfresh : e.store.read e.draw.1 = none) (hread : e.store.read id = some r)
    (hnow : r.validity e.clock.now ≠ .valid) :
    Contract e id ctx (runOp act (Manager.lookup id ctx) e).1
      (runOp act (Manager.lookup id ctx) e).2 := by
  obtain ⟨why, code, hwhy, hcode, hkind⟩ := exists_reason hnow
  rw [runOp_lookup_of_invalid act ctx hid hcalm hens hread hwhy]
  have hpoised := poised_judged act hpassive hens r
  generalize e.judged act r = e₂ at hpoised
  have hnever : ∀ x, (runOp act (Manager.replaceOrReport id r.host ctx why) e₂).1 ≠
      .ok (.found x) := fun x => runOp_replace_ne_found r.host why
  have hoff : e.autoCreate = false →
      runOp act (Manager.replaceOrReport id r.host ctx why) e₂ = (.ok (.invalid id why), e₂) := by
    intro hauto
    exact runOp_replace_off (by rw [hpoised.autoCreate, hauto])
  have hrefused : e.autoCreate = true → ∀ f, e.admission.check (r.host <|> ctx.host) = .error f →
      runOp act (Manager.replaceOrReport id r.host ctx why) e₂ = (.error f, e₂) :=
    fun hauto _ hcheck => refused_of_poised act hpoised hauto hcheck
  have hreplaced : e.autoCreate = true → e.admission.check (r.host <|> ctx.host) = .ok () →
      ∃ e₃, runOp act (Manager.replaceOrReport id r.host ctx why) e₂ =
          (.ok (.replaced id e.draw.1 code), e₃) ∧
        Superseded e e₃ r e.clock.now
          (Record.new e.draw.1 e.clock.read.2.now (r.host <|> ctx.host) e.timeout) := by
    intro hauto hcheck
    obtain ⟨e₃, hrun, hsuperseded, _⟩ :=
      replaced_of_poised act hpoised hcalm hread hnow hfresh hauto hcheck hcode
    exact ⟨e₃, hrun, hsuperseded⟩
  refine ⟨?_, ?_, ?_, ?_, ?_⟩
  · intro x
    refine ⟨fun h => absurd h (hnever x), fun h => ?_⟩
    rw [hread, Option.some.injEq] at h
    exact absurd (h.1 ▸ h.2) hnow
  · exact fun x h => absurd h (hnever x)
  · refine ⟨fun h => ?_, fun h => by rw [hread] at h; cases h⟩
    obtain ⟨why', hresult, hunknown⟩ := h
    exfalso
    cases hauto : e.autoCreate with
    | false =>
      rw [hoff hauto] at hresult
      cases hresult
      rw [hcode, hkind] at hunknown
      split at hunknown <;> cases hunknown
    | true =>
      cases hcheck : e.admission.check (r.host <|> ctx.host) with
      | error f =>
        rw [hrefused hauto f hcheck] at hresult
        cases hresult
      | ok u =>
        obtain ⟨e₃, hrun, _⟩ := hreplaced hauto hcheck
        rw [hrun] at hresult
        cases hresult
  · intro h
    rw [hread] at h
    cases h
  · intro x hx _
    rw [hread, Option.some.injEq] at hx
    subst hx
    refine ⟨why, code, hwhy, hcode, hkind, ?_, ?_, ?_⟩
    · intro hauto
      rw [hoff hauto]
      exact ⟨rfl, hpoised.validated⟩
    · intro hauto f hcheck
      rw [hrefused hauto f hcheck]
      exact ⟨rfl, hpoised.validated⟩
    · intro hauto hcheck
      obtain ⟨e₃, hrun, hsuperseded⟩ := hreplaced hauto hcheck
      rw [hrun]
      exact ⟨rfl, hsuperseded⟩

theorem contract_of_valid (act : Act) (hid : id ≠ []) (hcalm : e.disturbance = .calm)
    (hens : e.ensureBackground = (.ok (), e')) (hread : e.store.read id = some r)
    (hnow : r.validity e.clock.now = .valid) :
    Contract e id ctx (runOp act (Manager.lookup id ctx) e).1
      (runOp act (Manager.lookup id ctx) e).2 := by
  obtain ⟨b, lines, _, rfl⟩ := ensureBackground_eq_ok hens
  have hundisturbed : (e.withBackground b lines).Undisturbed := undisturbed_of_calm hcalm
  rw [runOp_lookup_of_valid hid hens hundisturbed hread hnow]
  refine ⟨?_, ?_, ?_, ?_, ?_⟩
  · intro x
    simp only [Except.ok.injEq, Manager.Finding.found.injEq, hread, Option.some.injEq]
    exact ⟨fun h => ⟨h, h ▸ hnow⟩, fun h => h.1⟩
  · exact fun _ _ => ⟨rfl, rfl, rfl⟩
  · simp [hread]
  · simp [hread]
  · intro x hx hinvalid
    rw [hread, Option.some.injEq] at hx
    exact absurd (hx ▸ hnow) hinvalid

theorem contract_of_unknown (act : Act) (hid : id ≠ []) (hcalm : e.disturbance = .calm)
    (hens : e.ensureBackground = (.ok (), e')) (hread : e.store.read id = none) :
    Contract e id ctx (runOp act (Manager.lookup id ctx) e).1
      (runOp act (Manager.lookup id ctx) e).2 := by
  obtain ⟨b, lines, _, rfl⟩ := ensureBackground_eq_ok hens
  have hundisturbed : (e.withBackground b lines).Undisturbed := undisturbed_of_calm hcalm
  rw [runOp_lookup_of_none hid hens hundisturbed hread]
  refine ⟨?_, ?_, ?_, ?_, ?_⟩
  · intro x
    simp [hread]
  · intro x h
    simp at h
  · exact ⟨fun _ => hread, fun _ => ⟨.unknown id, rfl, rfl⟩⟩
  · exact fun _ => ⟨rfl, rfl, rfl, rfl⟩
  · intro x hx
    rw [hread] at hx
    cases hx

/-- **The access contract.** On an undisturbed store, with listeners that ask for nothing, and with
an id at hand that is new to the store: if the background refuses to go on, the access fails for that
reason and leaves everything as it was. Otherwise it finds exactly the valid session, says of exactly
the missing one that it is unknown, and an ended session, or one that is timed out, is reported or
replaced, whatever room there is. -/
theorem lookup_contract (act : Act) {e : Engine} {id : Id} (ctx : Context) (hid : id ≠ [])
    (hcalm : e.disturbance = .calm) (hpassive : e.Passive)
    (hfresh : e.store.read e.draw.1 = none) :
    (∀ f, e.ensureBackground.1 = .error f →
      (runOp act (Manager.lookup id ctx) e).1 = .error f ∧
        Untouched e (runOp act (Manager.lookup id ctx) e).2) ∧
    (e.ensureBackground.1 = .ok () →
      Contract e id ctx (runOp act (Manager.lookup id ctx) e).1
        (runOp act (Manager.lookup id ctx) e).2) := by
  constructor
  · intro f hf
    have hens : e.ensureBackground = (.error f, e.ensureBackground.2) := Prod.ext hf rfl
    rw [runOp_lookup_of_ensure_error hid hens]
    exact ⟨rfl, rfl, rfl, rfl⟩
  · intro hok
    have hens : e.ensureBackground = (.ok (), e.ensureBackground.2) := Prod.ext hok rfl
    cases hread : e.store.read id with
    | none => exact contract_of_unknown act hid hcalm hens hread
    | some r =>
      by_cases hnow : r.validity e.clock.now = .valid
      · exact contract_of_valid act hid hcalm hens hread hnow
      · exact contract_of_invalid act hid hcalm hpassive hens hfresh hread hnow

/-- A timed-out session is accessed in a store that has no room beside it. -/
theorem lookup_contract_in_full_store :
    ∃ e : Engine,
      e = after 1 [.start none, .advanceClock 1800001]
        (blank { store := { maxSessions := 1 } } (.still 7) (fun n => (0, n.toUInt64)) .silent) ∧
      (runOp (perform 0) (Manager.lookup (Id.ofWords (0, 0)) ⟨none⟩) e).1 =
        .ok (.replaced (Id.ofWords (0, 0)) (Id.ofWords (0, 1)) .expiredSession) ∧
      ∃ lines, (e.store.validated (Record.new (Id.ofWords (0, 0)) 7 none 1800000) 1800008).create
          (Record.new (Id.ofWords (0, 1)) 1800008 none 1800000) =
        .ok ((runOp (perform 0) (Manager.lookup (Id.ofWords (0, 0)) ⟨none⟩) e).2.store, lines) := by
  let e := after 1 [.start none, .advanceClock 1800001]
    (blank { store := { maxSessions := 1 } } (.still 7) (fun n => (0, n.toUInt64)) .silent)
  have hpassive : e.Passive := passive_of_isEmpty (by decide +kernel)
  have hcontract := (@lookup_contract (perform 0) e (Id.ofWords (0, 0)) ⟨none⟩ (by decide) rfl
    hpassive (by decide +kernel)).2 rfl
  have hended := hcontract.ended (Record.new (Id.ofWords (0, 0)) 7 none 1800000)
    (by decide +kernel) (by decide +kernel)
  have hdraw : e.draw.1 = Id.ofWords (0, 1) := by decide +kernel
  have hnow : e.clock.now = 1800008 := by decide +kernel
  have hthen : e.clock.read.2.now = 1800008 := by decide +kernel
  have htimeout : e.timeout = 1800000 := by decide +kernel
  rw [hdraw, hnow, hthen, htimeout] at hended
  obtain ⟨why, code, _, _, rfl, _, _, hreplaced⟩ := hended
  obtain ⟨hresult, hsuperseded⟩ := hreplaced rfl rfl
  refine ⟨e, rfl, hresult, ?_⟩
  exact hsuperseded.store

/-- A timer that cannot be switched on stands in the way of a valid session. -/
theorem lookup_behind_refusing_timer :
    ∃ (e₀ e : Engine) (r : Record),
      Engine.new {} (.still 7) (fun n => (0, n.toUInt64)) .silent = .ok e₀ ∧
      e = after 1 [.start none, .setTimer (some "F") (.standIn .onFails)] e₀ ∧
      r.id ≠ [] ∧ e.disturbance = .calm ∧ e.Passive ∧ e.store.read e.draw.1 = none ∧
      e.store.read r.id = some r ∧ r.validity e.clock.now = .valid ∧
      (runOp (perform 0) (Manager.lookup r.id ⟨none⟩) e).1 = .error (.foreign "no threads left") ∧
      ¬Contract e r.id ⟨none⟩ (runOp (perform 0) (Manager.lookup r.id ⟨none⟩) e).1
        (runOp (perform 0) (Manager.lookup r.id ⟨none⟩) e).2 := by
  let e := after 1 [.start none, .setTimer (some "F") (.standIn .onFails)]
    (blank {} (.still 7) (fun n => (0, n.toUInt64)) .silent)
  let r := Record.new (Id.ofWords (0, 0)) 7 none 1800000
  have hread : e.store.read r.id = some r := by decide +kernel
  have hnow : r.validity e.clock.now = .valid := by decide +kernel
  have hfailed : (runOp (perform 0) (Manager.lookup r.id ⟨none⟩) e).1 =
      .error (.foreign "no threads left") := by decide +kernel
  have hpassive : e.Passive := passive_of_isEmpty (by decide +kernel)
  refine ⟨_, e, r, rfl, rfl, by decide, rfl, hpassive, by decide +kernel, hread, hnow, hfailed, ?_⟩
  intro hcontract
  have hfound := (hcontract.found_iff r).2 ⟨hread, hnow⟩
  rw [hfailed] at hfound
  cases hfound

end Engine
end Sessions
