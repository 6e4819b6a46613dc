import Sessions.Proofs.Engine.Faults
import Sessions.Proofs.Engine.Passage
import Sessions.Proofs.Manager.Session

/-!
# Sessions.Proofs.Manager.Room

There is always room for the replacement of a session: the session itself has ended by the time when room
is made, so there is a record to drop. Listeners may act in between, as long as they neither remove
sessions nor create any.

* `Program.Throughout`: something holds at every question of a run. `Engine.Onlooking`: listeners leave
  the sessions of the store as they are, whatever they are told in a run.
* `Engine.Held` is what goes on up to the making of room and behind it, `MadeRoom` the whole.
* `madeRoom_lookup`: an access to an invalid session. `replacements_find_room`: every operation by id.
* `store_grows_behind_raised_limit`: a listener that leaves the sessions alone, but not the limit.
-/

namespace Sessions

namespace Program

variable {Q : Type} {A : Q → Type} {α β σ : Type}

/-- Something holds of every question that a run asks, and of the state in which it is asked. -/
def Throughout (answer : (q : Q) → σ → A q × σ) (P : Q → σ → Prop) : Program Q A α → σ → Prop
  | done _, _ => True
  | ask q next, s => P q s ∧ Throughout answer P (next (answer q s).1) (answer q s).2

variable {answer : (q : Q) → σ → A q × σ} {P : Q → σ → Prop}

instance Throughout.decidable [∀ q s, Decidable (P q s)] :
    (p : Program Q A α) → (s : σ) → Decidable (p.Throughout answer P s)
  | done _, _ => .isTrue trivial
  | ask q next, s =>
    have := Throughout.decidable (next (answer q s).1) (answer q s).2
    inferInstanceAs (Decidable (_ ∧ _))

theorem throughout_bind {p : Program Q A α} {f : α → Program Q A β} {s : σ} :
    (p >>= f).Throughout answer P s ↔ p.Throughout answer P s ∧
      ∀ a, (p.run answer s).1 = .ok a → (f a).Throughout answer P (p.run answer s).2 := by
  change (p.bind f).Throughout answer P s ↔ _
  induction p generalizing s with
  | done r =>
    cases r with
    | ok a =>
      refine ⟨fun h => ⟨trivial, fun b hb => ?_⟩, fun h => h.2 a rfl⟩
      cases hb
      exact h
    | error f => exact ⟨fun _ => ⟨trivial, fun b hb => by cases hb⟩, fun _ => trivial⟩
  | ask q next ih => exact ⟨fun h => ⟨⟨h.1, ((ih _).1 h.2).1⟩, ((ih _).1 h.2).2⟩,
      fun h => ⟨h.1.1, (ih _).2 ⟨h.1.2, h.2⟩⟩⟩

end Program

namespace Engine

variable {act : Act} {e e' e'' e₁ e₂ : Engine} {id : Id} {ctx : Context} {r : Record} {f : Fault}

/-! ## Listeners that only look on -/

instance (e : Engine) : Decidable e.Undisturbed := decidable_of_iff _ List.isEmpty_iff

/-- Told of something, listeners neither remove sessions nor create any, not for a moment, and do not
meddle with the store itself. -/
structure Onlooks (act : Act) (ev : Event) (r : Record) (e : Engine) : Prop where
  undisturbed : (announce act ev r e).Undisturbed
  peers : ∀ s ∈ e.contentsSince (announce act ev r e), e.store.records.Peers s

instance (act : Act) (ev : Event) (r : Record) (e : Engine) : Decidable (Onlooks act ev r e) :=
  decidable_of_iff ((announce act ev r e).Undisturbed ∧
    ∀ s ∈ e.contentsSince (announce act ev r e), e.store.records.Peers s)
    ⟨fun h => ⟨h.1, h.2⟩, fun h => ⟨h.undisturbed, h.peers⟩⟩

def OnlooksAt (act : Act) : Manager.Question → Engine → Prop
  | .announce ev r, e => Onlooks act ev r e
  | _, _ => True

instance (act : Act) : (q : Manager.Question) → (e : Engine) → Decidable (OnlooksAt act q e)
  | .announce ev r, e => inferInstanceAs (Decidable (Onlooks act ev r e))
  | .clock, _ | .mint, _ | .allow _, _ | .read _, _ | .create _, _ | .update _, _ | .live, _
  | .count _, _ | .log _ _, _ | .lock, _ | .unlock, _ | .ensureSweeping, _ | .autoCreate, _
  | .timeout, _ => .isTrue trivial

/-- Listeners only look on, whatever they are told while a program runs. -/
def Onlooking {α : Type} (act : Act) (p : Manager.Op α) (e : Engine) : Prop :=
  p.Throughout (answer act) (OnlooksAt act) e

instance {α : Type} (act : Act) (p : Manager.Op α) (e : Engine) : Decidable (Onlooking act p e) :=
  inferInstanceAs (Decidable (p.Throughout (answer act) (OnlooksAt act) e))

theorem onlooking_of_bind {α β : Type} {p : Manager.Op α} {g : α → Manager.Op β} {a : α}
    (hp : runOp act p e = (.ok a, e')) (h : Onlooking act (p >>= g) e) : Onlooking act (g a) e' := by
  have hrest := (Program.throughout_bind.1 h).2 a
  unfold runOp at hp
  rw [hp] at hrest
  exact hrest rfl

theorem onlooking_of_bind_left {α β : Type} {p : Manager.Op α} {g : α → Manager.Op β}
    (h : Onlooking act (p >>= g) e) : Onlooking act p e := (Program.throughout_bind.1 h).1

theorem onlooks_of_announce {ev : Event} (h : Onlooking act (Manager.announce ev r) e) :
    Onlooks act ev r e := h.1

/-! ## What goes on besides -/

/-- The sessions of the store are the same throughout, and those that ended stay so. -/
def Held (e e' : Engine) : Prop := Through (fun s s' => s.Settles s' ∧ s.Peers s') e e'

theorem held_of_onlooks (hact : Settling act) {ev : Event} (h : Onlooks act ev r e) :
    Held e (announce act ev r e) := by
  obtain ⟨added, hjournal, hpasses⟩ := settles_announce hact ev r e
  have hadded : e.contentsSince (announce act ev r e) = added.filterMap (·.content?) := by
    rw [contentsSince, hjournal, List.drop_left]
  exact ⟨added, hjournal, hpasses.and_peers (hadded ▸ h.peers)⟩

theorem held_of_update (h : e.updateNow r = (.ok (), e')) : Held e e' := by
  obtain ⟨store, hupdate, rfl⟩ := updateNow_eq_ok h
  exact .keep ⟨Store.settles_update hupdate, Store.peers_update hupdate⟩

end Engine

/-- Contents that hold the same sessions all the way. -/
theorem Roster.Passes.held {s s' : Roster} {cs : List Roster}
    (h : Passes (fun s s' => s.Settles s' ∧ s.Peers s') s cs s') :
    s.Peers s' ∧ ∀ id v, s.get? id = some v → v.isTerminal = true →
      ∃ v', s'.get? id = some v' ∧ v'.isTerminal = true := by
  induction cs generalizing s with
  | nil =>
    cases h
    exact ⟨.refl _, fun id v hv hend => ⟨v, hv, hend⟩⟩
  | cons c cs ih =>
    obtain ⟨⟨hsettles, hpeers⟩, hrest⟩ := h
    obtain ⟨hpeers', hended⟩ := ih hrest
    refine ⟨hpeers.trans hpeers', fun id v hv hend => ?_⟩
    obtain ⟨v', hv'⟩ : ∃ v', c.get? id = some v' := by
      rw [← Option.isSome_iff_exists, hpeers id, hv]
      rfl
    exact hended id v' hv' (hsettles id v v' hv hv' hend)

namespace Engine

variable {act : Act} {e e' e'' e₁ e₂ : Engine} {id : Id} {ctx : Context} {r : Record} {f : Fault}

theorem Held.size (h : Held e e') : e'.store.size = e.store.size := by
  obtain ⟨_, _, hpasses⟩ := h
  exact Roster.size_eq_of_peers hpasses.held.1

theorem Held.ended (h : Held e e') {v : Record} (hread : e.store.read id = some v)
    (hend : v.isTerminal = true) : ∃ v', e'.store.read id = some v' ∧ v'.isTerminal = true := by
  obtain ⟨_, _, hpasses⟩ := h
  exact hpasses.held.2 id v hread hend

theorem Held.evicts (h : Held e e') : Through Roster.Evicts e e' :=
  h.mono fun _ _ hstep => Roster.evicts_of_peers hstep.2

/-- What an access may do to the records: nothing but records that ended are dropped, of these the one that
was used longest ago, and a store that was at its limit or over it does not grow. -/
structure MadeRoom (e e' : Engine) (limit : Nat) : Prop where
  evicts : Through Roster.Evicts e e'
  size : limit ≠ 0 → limit ≤ e.store.size → e'.store.size ≤ e.store.size

theorem MadeRoom.of_held {limit : Nat} (h : Held e e') : MadeRoom e e' limit :=
  ⟨h.evicts, fun _ _ => h.size.le⟩

/-- A session is created between two stretches in which nobody comes or goes. -/
theorem MadeRoom.of_create (h : Held e e₁) {store : Store} {lines : List LogLine}
    (hcreate : e₁.store.create r = .ok (store, lines))
    (he₂ : e₂.store = store ∧ e₂.journal = e₁.journal ++ [.stored store.records]) (h' : Held e₂ e') :
    MadeRoom e e' e₁.store.limit := by
  obtain ⟨rfl, hjournal⟩ := he₂
  have hcreated : Through Roster.Evicts e₁ e₂ :=
    ⟨[.stored e₂.store.records], hjournal, Store.evicts_create hcreate, rfl⟩
  refine ⟨(h.evicts.trans hcreated).trans h'.evicts, fun hlimit hfull => ?_⟩
  have hisFull : e₁.store.isFull = true := by
    rw [Store.isFull, h.size, Bool.and_eq_true, decide_eq_true_eq, decide_eq_true_eq]
    exact ⟨Nat.pos_of_ne_zero hlimit, hfull⟩
  rw [h'.size, Store.size_create hcreate, if_pos hisFull, h.size]

/-! ## Starting -/

/-- A record that ended gives another reason than the lack of room. -/
theorem code_of_endFault (h : r.endFault? = some f) : f.code? ≠ some .storeFull := by
  unfold Record.endFault? at h
  split at h
  · cases h
    exact ne_of_beq_false rfl
  · split at h <;> cases h
    exact ne_of_beq_false rfl

theorem code_of_ensure_error (h : e.ensureBackground = (.error f, e')) :
    f.code? ≠ some .storeFull := by
  obtain rfl | rfl := ensureBackground_eq_error (congrArg Prod.fst h) <;> exact ne_of_beq_false rfl

theorem code_of_check_error {a : Admission} {host : Option Text} (h : a.check host = .error f) :
    f.code? ≠ some .storeFull := by
  obtain ⟨refused, rfl⟩ | ⟨text, rfl⟩ | rfl := Admission.check_eq_error h
  · exact ne_of_beq_false rfl
  · unfold Fault.hostMalformed
    split <;> exact ne_of_beq_false rfl
  · exact ne_of_beq_false rfl

theorem code_of_update_error (h : e.updateNow r = (.error f, e')) : f.code? ≠ some .storeFull := by
  obtain rfl | hupdate := updateNow_fault h
  · exact ne_of_beq_false rfl
  · obtain rfl | ⟨stored, _, hend⟩ := Store.update_eq_error hupdate
    · exact ne_of_beq_false rfl
    · exact code_of_endFault hend

/-- Where somebody ended, a creation does not fail for lack of room. -/
theorem code_of_create_error {v : Record} (hread : e.store.read id = some v)
    (hend : v.isTerminal = true) (h : e.createNow r = (.error f, e')) :
    f.code? ≠ some .storeFull := by
  obtain rfl | hcreate := createNow_fault h
  · exact ne_of_beq_false rfl
  · obtain ⟨_, rfl⟩ | ⟨_, hnobody, _⟩ := Store.create_eq_error hcreate
    · exact ne_of_beq_false rfl
    · obtain ⟨w, hw⟩ := Roster.exists_oldestEnded (Roster.mem_of_get? hread) hend
      rw [hnobody] at hw
      cases hw

/-- A start where somebody ended finds room. -/
theorem madeRoom_start (hact : Settling act) (hhooks : e.Undisturbed) {host : Option Text}
    (honlook : Onlooking act (Manager.start host) e) {v : Record} (hread : e.store.read id = some v)
    (hend : v.isTerminal = true) {o : Except Fault Id}
    (h : runOp act (Manager.start host) e = (o, e')) :
    (∀ f, o = .error f → f.code? ≠ some .storeFull) ∧ MadeRoom e e' e.store.limit := by
  cases hens : e.ensureBackground with
  | mk u e₁ =>
    have hhooks₁ := undisturbed_of_ensure hhooks hens
    have hensured : Held e e.ensureBackground.2 := .frame rfl rfl
    rw [hens] at hensured
    cases u with
    | error g =>
      rw [runOp_start_of_ensure_error hens] at h
      cases h
      refine ⟨fun f hf => ?_, .of_held hensured⟩
      cases hf
      exact code_of_ensure_error hens
    | ok u =>
      cases hcheck : e₁.admission.check host with
      | error g =>
        rw [runOp_start_of_check_error hens hcheck] at h
        cases h
        refine ⟨fun f hf => ?_, .of_held hensured⟩
        cases hf
        exact code_of_check_error hcheck
      | ok u =>
        rw [runOp_start_of_check_ok hhooks₁ hens hcheck] at h
        have hstore : e₁.supplied.store = e.store := by
          obtain ⟨b, lines, _, rfl⟩ := ensureBackground_eq_ok hens
          rfl
        cases hcreate : e₁.supplied.createNow (e₁.fresh host) with
        | mk u e₂ =>
          rw [hcreate] at h
          cases u with
          | error g =>
            obtain rfl := createNow_eq_error hcreate
            cases h
            have hread₁ : e₁.supplied.store.read id = some v := by rw [hstore, hread]
            have hsupplied : Held e₁ e₁.supplied := .frame rfl rfl
            refine ⟨fun f hf => ?_, .of_held (hensured.trans hsupplied)⟩
            cases hf
            exact code_of_create_error hread₁ hend hcreate
          | ok u =>
            cases h
            refine ⟨fun f hf => (nomatch hf), ?_⟩
            -- the program up to the announcement, which is told of in the state behind the creation
            obtain ⟨store, lines, hstored, rfl⟩ := createNow_eq_ok hcreate
            have hensure : runOp act Manager.ensureSweeping e = (.ok (), e₁) := hens
            have hallow : runOp act (Manager.allow host) e₁ = (.ok (), e₁) := by
              rw [runOp_allow, hcheck]
            have hcreated := (runOp_create act (e := e₁.supplied) hhooks₁ (e₁.fresh host)).trans hcreate
            unfold Manager.start at honlook
            replace honlook := onlooking_of_bind hensure honlook
            replace honlook := onlooking_of_bind runOp_timeout honlook
            replace honlook := onlooking_of_bind hallow honlook
            replace honlook := onlooking_of_bind runOp_mint honlook
            replace honlook := onlooking_of_bind runOp_clock honlook
            replace honlook := onlooking_of_bind hcreated honlook
            replace honlook := onlooking_of_bind (runOp_count _) honlook
            replace honlook := onlooking_of_bind (runOp_log _ _) honlook
            have honlooks := onlooks_of_announce (onlooking_of_bind_left honlook)
            have hannounced := held_of_onlooks hact honlooks
            have hheld : Held e e₁.supplied := hensured.trans (.frame rfl rfl)
            have hroom := MadeRoom.of_create hheld hstored ⟨rfl, rfl⟩ hannounced
            rw [hstore] at hroom
            exact hroom

/-! ## Looking up -/

theorem MadeRoom.after {limit : Nat} (h : Held e e₁) (h' : MadeRoom e₁ e' limit) :
    MadeRoom e e' limit := by
  refine ⟨h.evicts.trans h'.evicts, fun hlimit hfull => ?_⟩
  rw [← h.size] at hfull ⊢
  exact h'.size hlimit hfull

/-- A session that ended finds room for its replacement. -/
theorem madeRoom_replace (hact : Settling act) (hhooks : e.Undisturbed) {host : Option Text}
    {why : Fault} (hwhy : why.code? ≠ some .storeFull)
    (honlook : Onlooking act (Manager.replaceOrReport id host ctx why) e) {v : Record}
    (hread : e.store.read id = some v) (hend : v.isTerminal = true)
    {o : Except Fault Manager.Finding}
    (h : runOp act (Manager.replaceOrReport id host ctx why) e = (o, e')) :
    (∃ f, o.bind (·.session) = .error f ∧ f.code? ≠ some .storeFull) ∧
      MadeRoom e e' e.store.limit := by
  cases hauto : e.autoCreate with
  | false =>
    rw [runOp_replace_off hauto] at h
    cases h
    exact ⟨⟨why, rfl, hwhy⟩, .of_held (.refl e)⟩
  | true =>
    unfold Manager.replaceOrReport at honlook
    replace honlook := onlooking_of_bind runOp_autoCreate honlook
    rw [if_pos hauto] at honlook
    cases hstart : runOp act (Manager.start (host <|> ctx.host)) e with
    | mk u e₁ =>
      obtain ⟨hfault, hroom⟩ :=
        madeRoom_start hact hhooks (onlooking_of_bind_left honlook) hread hend hstart
      cases u with
      | error f =>
        rw [runOp_replace_of_error hauto hstart] at h
        cases h
        exact ⟨⟨f, rfl, hfault f rfl⟩, hroom⟩
      | ok new =>
        rw [runOp_replace_of_ok hauto hstart] at h
        cases h
        exact ⟨⟨_, rfl, ne_of_beq_false rfl⟩, hroom.evicts, hroom.size⟩

/-- What a look-up does with a record that is not valid: nothing in front of the replacement if it ended
before, and otherwise the mark. -/
theorem onlooking_replace_of_ended (hid : id ≠ []) (hens : e.ensureBackground = (.ok (), e'))
    (hhooks : e'.Undisturbed) (hread : e'.store.read id = some r) {why : Fault}
    (hend : r.endFault? = some why) (honlook : Onlooking act (Manager.lookup id ctx) e) :
    Onlooking act (Manager.replaceOrReport id r.host ctx why) e'.afterReading := by
  have hrid : r.id = id := Roster.id_of_get? hread
  have hensure : runOp act Manager.ensureSweeping e = (.ok (), e') := hens
  rw [Manager.lookup, if_neg hid] at honlook
  replace honlook := onlooking_of_bind hensure honlook
  replace honlook := onlooking_of_bind (runOp_read act hhooks id) honlook
  rw [hread] at honlook
  replace honlook := onlooking_of_bind runOp_clock honlook
  unfold Record.endFault? at hend
  cases hstop : r.stopTime with
  | some t =>
    rw [hstop, hrid] at hend
    cases hend
    simp only [hstop] at honlook
    exact honlook
  | none =>
    simp only [hstop] at hend
    obtain ⟨hexp, hwhy⟩ := Option.ite_none_right_eq_some.1 hend
    rw [hrid] at hwhy
    cases hwhy
    have hvalidity : r.validity e'.clock.now = .expired := by simp [Record.validity, hstop, hexp]
    simp only [hstop, hvalidity] at honlook
    exact honlook

theorem onlooking_of_timedOut (hid : id ≠ []) (hens : e.ensureBackground = (.ok (), e'))
    (hhooks : e'.Undisturbed) (hread : e'.store.read id = some r)
    (hnow : r.validity e'.clock.now = .timedOut)
    (hwrite : e'.afterReading.updateNow r.marked = (.ok (), e''))
    (honlook : Onlooking act (Manager.lookup id ctx) e) :
    Onlooks act .expiration r.marked (e''.counting .expired) ∧
      Onlooking act (Manager.replaceOrReport id r.host ctx
          (.expired id (.idle r.lastAccess e'.clock.now r.timeout)))
        (announce act .expiration r.marked (e''.counting .expired)) := by
  have hlive := Record.isTerminal_of_validity (Or.inr hnow)
  have hstop : r.stopTime = none := (Record.isTerminal_eq_false_iff.1 hlive).1
  have hafter : e'.afterReading.Undisturbed := hhooks
  have hmarked := runOp_expire_of_timedOut act hafter hread hnow
  rw [hwrite] at hmarked
  have hensure : runOp act Manager.ensureSweeping e = (.ok (), e') := hens
  rw [Manager.lookup, if_neg hid] at honlook
  replace honlook := onlooking_of_bind hensure honlook
  replace honlook := onlooking_of_bind (runOp_read act hhooks id) honlook
  rw [hread] at honlook
  replace honlook := onlooking_of_bind runOp_clock honlook
  simp only [hstop, hnow, Manager.lookupTimedOut] at honlook
  replace honlook := onlooking_of_bind hmarked honlook
  simp only [if_true] at honlook
  refine ⟨onlooks_of_announce (onlooking_of_bind_left honlook), ?_⟩
  have hstop' : r.marked.stopTime = none := hstop
  replace honlook := onlooking_of_bind (runOp_announce _ _) honlook
  simp only [hstop', Record.validity_marked hlive] at honlook
  exact honlook

/-- An access to an invalid session fails or is sent elsewhere, but never for lack of room. -/
theorem madeRoom_lookup (hact : Settling act) (hhooks : e.Undisturbed)
    (honlook : Onlooking act (Manager.lookup id ctx) e) (hread : e.store.read id = some r)
    (hnow : r.validity e.clock.now ≠ .valid) {o : Except Fault Manager.Finding}
    (h : runOp act (Manager.lookup id ctx) e = (o, e')) :
    (∃ f, o.bind (·.session) = .error f ∧ f.code? ≠ some .storeFull) ∧
      MadeRoom e e' (e.judged act r).store.limit := by
  by_cases hid : id = []
  · subst hid
    rw [runOp_lookup_of_malformed] at h
    cases h
    exact ⟨⟨_, rfl, ne_of_beq_false rfl⟩, .of_held (.refl e)⟩
  cases hens : e.ensureBackground with
  | mk u e₁ =>
    have hhooks₁ := undisturbed_of_ensure hhooks hens
    have hensured : Held e e.ensureBackground.2 := .frame rfl rfl
    rw [hens] at hensured
    cases u with
    | error f =>
      rw [runOp_lookup_of_ensure_error hid hens] at h
      cases h
      exact ⟨⟨f, rfl, code_of_ensure_error hens⟩, .of_held hensured⟩
    | ok u =>
      have hread₁ : e₁.store.read id = some r := by
        obtain ⟨b, lines, _, rfl⟩ := ensureBackground_eq_ok hens
        exact hread
      have hclock₁ : e₁.clock = e.clock := by
        obtain ⟨b, lines, _, rfl⟩ := ensureBackground_eq_ok hens
        rfl
      have hlooked : Held e e₁.afterReading := hensured.trans (.frame rfl rfl)
      cases hnow₁ : r.validity e.clock.now with
      | valid => exact absurd hnow₁ hnow
      | timedOut =>
        obtain ⟨f, hwrite, hfailed⟩ | ⟨hwrite, hreplace⟩ :=
          runOp_lookup_of_marking act ctx hid hhooks hens hread hnow₁
        · rw [hfailed] at h
          cases h
          exact ⟨⟨f, rfl, code_of_update_error hwrite⟩, .of_held hlooked⟩
        · rw [hreplace] at h
          have hnow₂ : r.validity e₁.clock.now = .timedOut := by rw [hclock₁, hnow₁]
          obtain ⟨honlooks, honlook'⟩ :=
            onlooking_of_timedOut hid hens hhooks₁ hread₁ hnow₂ hwrite honlook
          have hjudged := judged_of_timedOut act hens hnow₁
          rw [hclock₁] at honlook'
          rw [hjudged] at h ⊢
          have hmarked : Held e
              ((e₁.afterReading.keep (e₁.store.rewrite r.marked)).counting .expired) :=
            (hlooked.trans (held_of_update hwrite)).trans (.frame rfl rfl)
          have hheld := hmarked.trans (held_of_onlooks hact honlooks)
          -- the session itself has ended by now, and listeners let it stand
          have hstored : ((e₁.afterReading.keep (e₁.store.rewrite r.marked)).counting
              .expired).store.read id = some r.marked := by
            have hrid : id = r.marked.id := (Roster.id_of_get? hread).symm
            exact (Store.read_rewrite _ _ _).trans (if_pos hrid)
          obtain ⟨v, hv, hend⟩ :=
            (held_of_onlooks hact honlooks).ended hstored r.marked_isTerminal
          obtain ⟨hfault, hroom⟩ := madeRoom_replace hact honlooks.undisturbed
            (ne_of_beq_false rfl) honlook' hv hend h
          exact ⟨hfault, hroom.after hheld⟩
      | _ =>
        have hnot : r.validity e.clock.now ≠ .timedOut := by simp [hnow₁]
        have hended : r.validity e.clock.now = .stopped ∨ r.validity e.clock.now = .expired := by
          simp [hnow₁]
        obtain ⟨why, hwhy⟩ := Record.exists_endFault hended
        have hend : r.isTerminal = true := by
          rw [← Bool.not_eq_false, ← Record.endFault?_eq_none_iff, hwhy]
          exact Option.some_ne_none why
        have honlook' := onlooking_replace_of_ended hid hens hhooks₁ hread₁ hwhy honlook
        rw [runOp_lookup_of_ended hid hens hhooks₁ hread₁ hwhy] at h
        have hhooks₂ : e₁.afterReading.Undisturbed := hhooks₁
        have hread₂ : e₁.afterReading.store.read id = some r := hread₁
        obtain ⟨hfault, hroom⟩ :=
          madeRoom_replace hact hhooks₂ (code_of_endFault hwhy) honlook' hread₂ hend h
        rw [judged_of_not_timedOut act hens hnot]
        exact ⟨hfault, hroom.after hlooked⟩

/-! ## Operations by id -/

/-- The operations that look a session up. -/
def Command.access? : Command → Option (Ref × Context)
  | .call _ ref ctx | .isValid ref ctx | .validate ref ctx | .getSession ref ctx | .lookup ref ctx =>
    some (ref, ctx)
  | _ => none

theorem runReply_of_error {α : Type} {p : Manager.Op α} {wrap : α → Reply}
    (h : runOp act p e = (.error f, e')) : runReply act p wrap e = (.error f, e') := by
  unfold runReply
  rw [h]
  rfl

/-- Where the look-up finds no valid session, an operation comes to no more than the look-up, and fails, if
it does, for its reason. -/
theorem performWith_of_access {c : Command} {ref : Ref} (haccess : c.access? = some (ref, ctx))
    {o : Except Fault Manager.Finding}
    (h : runOp act (Manager.lookup (e.resolve ref) ctx) e = (o, e'))
    (hf : o.bind (·.session) = .error f) :
    (performWith act c e).2.store = e'.store ∧ (performWith act c e).2.journal = e'.journal ∧
      ∀ g, (performWith act c e).1 = .error g → g = f := by
  have hsession : runOp act (Manager.getSession (e.resolve ref) ctx) e = (.error f, e') := by
    rw [runOp_getSession_eq, h, hf]
  have hvalidate : runOp act (Manager.validateSession (e.resolve ref) ctx) e = (.error f, e') :=
    runOp_bind_error hsession
  have hfailed : ∀ {c : Command}, performWith act c e = (.error f, e') →
      (performWith act c e).2.store = e'.store ∧ (performWith act c e).2.journal = e'.journal ∧
        ∀ g, (performWith act c e).1 = .error g → g = f := by
    intro c hc
    rw [hc]
    refine ⟨rfl, rfl, fun g hg => ?_⟩
    cases hg
    rfl
  cases c with
  | call c ref' ctx' =>
    cases haccess
    exact hfailed (runReply_of_error (runOp_serve_of_error hsession c))
  | validate ref' ctx' =>
    cases haccess
    exact hfailed (runReply_of_error hvalidate)
  | getSession ref' ctx' =>
    cases haccess
    exact hfailed (runReply_of_error hsession)
  | lookup ref' ctx' =>
    cases haccess
    cases o with
    | error f' =>
      cases hf
      exact hfailed (runReply_of_error h)
    | ok x =>
      have hfound : performWith act (.lookup ref ctx) e = (.ok (.finding x), e') := by
        unfold performWith runReply
        simp only [h]
        rfl
      rw [hfound]
      exact ⟨rfl, rfl, fun g hg => nomatch hg⟩
  | isValid ref' ctx' =>
    cases haccess
    by_cases hid : e.resolve ref = []
    · rw [hid, runOp_lookup_of_malformed] at h
      cases h
      have hempty : performWith act (.isValid ref ctx) e = (.ok (.answer (.flag false)), e) := by
        unfold performWith runReply Manager.isValid
        simp only [if_pos hid]
        rfl
      rw [hempty]
      exact ⟨rfl, rfl, fun g hg => nomatch hg⟩
    · have hattempt : runOp act (Manager.validateSession (e.resolve ref) ctx).attempt e =
          (.ok (.error f), e') := by
        rw [runOp_attempt, hvalidate]
      -- what is taken for a "no" is logged
      unfold performWith runReply Manager.isValid
      simp only [if_neg hid]
      rw [runOp_bind_ok hattempt]
      simp only
      split
      · exact ⟨rfl, rfl, fun g hg => nomatch hg⟩
      · split
        · exact ⟨rfl, rfl, fun g hg => nomatch hg⟩
        · refine ⟨rfl, rfl, fun g hg => ?_⟩
          cases hg
          rfl
  | _ => cases haccess

/-- **Room for replacements.** An access to a session that is not valid never fails for lack of room, as
long as listeners neither remove sessions nor create any, whatever else they do and however full the store
is. Nothing but records that ended is dropped, of these the one that was used longest ago; and where the
store is at its limit or over it when room is made, which is behind the validation of the session, it does
not grow. -/
theorem replacements_find_room (n : Nat) {e : Engine} {c : Command} {ref : Ref} {ctx : Context}
    {r : Record} (hhooks : e.Undisturbed) (haccess : c.access? = some (ref, ctx))
    (hread : e.store.read (e.resolve ref) = some r) (hnow : r.validity e.clock.now ≠ .valid)
    (honlook : Onlooking (perform n) (Manager.lookup (e.resolve ref) ctx) e) :
    (∀ f, (perform (n + 1) c e).1 = .error f → f.code? ≠ some .storeFull) ∧
    Through Roster.Evicts e (perform (n + 1) c e).2 ∧
    ((e.judged (perform n) r).store.limit ≠ 0 →
      (e.judged (perform n) r).store.limit ≤ e.store.size →
        (perform (n + 1) c e).2.store.size ≤ e.store.size) := by
  cases hlookup : runOp (perform n) (Manager.lookup (e.resolve ref) ctx) e with
  | mk o e' =>
    obtain ⟨⟨f, hf, hcode⟩, hroom⟩ :=
      madeRoom_lookup (settles_perform n) hhooks honlook hread hnow hlookup
    obtain ⟨hstore, hjournal, hfault⟩ := performWith_of_access haccess hlookup hf
    refine ⟨fun g hg => hfault g hg ▸ hcode, ?_, ?_⟩
    · exact hroom.evicts.trans (.frame (congrArg Store.records hstore) hjournal)
    · have hsize : (perform (n + 1) c e).2.store.size = e'.store.size := congrArg Store.size hstore
      rw [hsize]
      exact hroom.size

/-- A listener that stops another session for every one that expires. -/
def stopper : Listener Command where
  name := "stopper"
  hears ev := ev = .expiration
  react _ _ := ⟨[.call .stop (.started 2 []) ⟨none⟩], none⟩

/-- Two sessions in a store whose limit was lowered to one. The first one is timed out; when it is touched,
a listener stops the second one, and still it is the first that is dropped. -/
theorem replacements_find_room_in_overfull_store :
    ∃ e : Engine,
      e = after 2 [.start none, .advanceClock 10, .start none, .listen stopper, .store (.setLimit 1),
        .advanceClock 1799995] (blank {} (.still 7) (fun n => (0, n.toUInt64)) .silent) ∧
      e.store.size = 2 ∧ e.store.limit = 1 ∧
      (runOp (perform 1) (Manager.lookup (Id.ofWords (0, 0)) ⟨none⟩) e).1 =
        .ok (.replaced (Id.ofWords (0, 0)) (Id.ofWords (0, 2)) .expiredSession) ∧
      Through Roster.Evicts e (perform 2 (.call .touch (.started 1 []) ⟨none⟩) e).2 ∧
      (perform 2 (.call .touch (.started 1 []) ⟨none⟩) e).2.store.size ≤ 2 ∧
      (perform 2 (.call .touch (.started 1 []) ⟨none⟩) e).2.store.read (Id.ofWords (0, 0)) = none := by
  let e := after 2 [.start none, .advanceClock 10, .start none, .listen stopper, .store (.setLimit 1),
    .advanceClock 1799995] (blank {} (.still 7) (fun n => (0, n.toUInt64)) .silent)
  let r := Record.new (Id.ofWords (0, 0)) 7 none 1800000
  have hhooks : e.Undisturbed := by decide +kernel
  have hread : e.store.read (e.resolve (.started 1 [])) = some r := by decide +kernel
  have hnow : r.validity e.clock.now ≠ .valid := by decide +kernel
  have hsize : e.store.size = 2 := by decide +kernel
  have hlimit : (e.judged (perform 1) r).store.limit = 1 := by decide +kernel
  have haccess := @replacements_find_room 1 e (.call .touch (.started 1 []) ⟨none⟩) (.started 1 [])
    ⟨none⟩ r hhooks rfl hread hnow (by decide +kernel)
  simp only [Nat.reduceAdd] at haccess
  have hroom := haccess.2.2
  rw [hlimit, hsize] at hroom
  exact ⟨e, rfl, hsize, by decide +kernel, by decide +kernel, haccess.2.1,
    hroom (by decide) (by decide), by decide +kernel⟩

/-- A listener that raises the limit of the store when a session expires. -/
def raiser : Listener Command where
  name := "raiser"
  hears ev := ev = .expiration
  react _ _ := ⟨[.store (.setLimit 10)], none⟩

/-- The only session of a full store is timed out. A listener that hears of it neither removes sessions nor
creates any, but raises the limit; so the replacement needs no room, and the store grows. -/
theorem store_grows_behind_raised_limit :
    ∃ (e₀ e : Engine) (r : Record),
      Engine.new {} (.still 7) (fun n => (0, n.toUInt64)) .silent = .ok e₀ ∧
      e = after 1 [.start none, .store (.setLimit 1), .listen raiser, .advanceClock 1800001] e₀ ∧
      e.Undisturbed ∧ e.autoCreate = true ∧ e.store.read r.id = some r ∧
      r.validity e.clock.now = .timedOut ∧
      Onlooking (perform 1) (Manager.lookup r.id ⟨none⟩) e ∧
      e.store.limit = 1 ∧ e.store.size = 1 ∧
      (runOp (perform 1) (Manager.lookup r.id ⟨none⟩) e).2.store.size = 2 := by
  let e := after 1 [.start none, .store (.setLimit 1), .listen raiser, .advanceClock 1800001]
    (blank {} (.still 7) (fun n => (0, n.toUInt64)) .silent)
  let r := Record.new (Id.ofWords (0, 0)) 7 none 1800000
  exact ⟨_, e, r, rfl, rfl, by decide +kernel, by decide +kernel, by decide +kernel,
    by decide +kernel, by decide +kernel, by decide +kernel, by decide +kernel, by decide +kernel⟩

end Engine
end Sessions
