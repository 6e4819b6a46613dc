import Sessions.Proofs.Engine.Ledger
import Sessions.Proofs.Handle.Frame
import Sessions.Proofs.Manager.Access

/-!
# Sessions.Proofs.Engine.Conduct

Every operation changes the books by steps of `Ledger.Step` only, whatever the listeners do.

* `leads_start`, `leads_lookup`, `leads_serve`, `leads_sweep`: the programs of the manager, given
  that the commands of listeners lead on.
* `performWith_leads`, `perform_leads`: commands, by induction on how deep callbacks nest.
* `after_leads`: whole runs from a new engine.
-/

namespace Sessions

namespace Engine

variable {p : Command → Prop} {act : Act} {e e' : Engine} {id : Id} {ctx : Context}

/-! ## Starting and looking up -/

theorem leads_start (hact : Obeys p act) (host : Option Text) (e : Engine) :
    Leads p e (runOp act (Manager.start host) e).2 := by
  apply Leads.of_regular
  intro hreg
  cases hens : e.ensureBackground with
  | mk o e₁ =>
    have h₁ : Leads p e e₁ := leads_of_ensure hens
    cases o with
    | error f =>
      rw [runOp_start_of_ensure_error hens]
      exact h₁
    | ok u =>
      cases hcheck : e₁.admission.check host with
      | error f =>
        rw [runOp_start_of_check_error hens hcheck]
        exact h₁
      | ok u =>
        rw [runOp_start_of_check_ok (h₁.regular hreg).undisturbed hens hcheck]
        cases hnow : e₁.supplied.createNow (e₁.fresh host) with
        | mk o' e₂ =>
          cases o' with
          | error f =>
            rw [createNow_eq_error hnow]
            exact h₁.trans (.step rfl rfl rfl (.draw e₁.ledger))
          | ok u => exact h₁.trans (leads_launched hact hcheck hnow)

theorem leads_replaceOrReport (hact : Obeys p act) (host : Option Text) (why : Fault)
    (e : Engine) : Leads p e (runOp act (Manager.replaceOrReport id host ctx why) e).2 := by
  cases hauto : e.autoCreate with
  | false =>
    rw [runOp_replace_off hauto]
    exact .refl e
  | true =>
    have hstarted := leads_start hact (host <|> ctx.host) e
    cases hstart : runOp act (Manager.start (host <|> ctx.host)) e with
    | mk o e' =>
      rw [hstart] at hstarted
      cases o with
      | error f =>
        rw [runOp_replace_of_error hauto hstart]
        exact hstarted
      | ok fresh =>
        rw [runOp_replace_of_ok hauto hstart]
        exact hstarted.trans (.frame rfl rfl rfl rfl)

theorem leads_lookup (hact : Obeys p act) (id : Id) (ctx : Context) (e : Engine) :
    Leads p e (runOp act (Manager.lookup id ctx) e).2 := by
  apply Leads.of_regular
  intro hreg
  by_cases hid : id = []
  · subst hid
    exact .refl e
  cases hens : e.ensureBackground with
  | mk o e₁ =>
    have h₁ : Leads p e e₁ := leads_of_ensure hens
    have hcalm : e₁.Undisturbed := (h₁.regular hreg).undisturbed
    cases o with
    | error f =>
      rw [runOp_lookup_of_ensure_error hid hens]
      exact h₁
    | ok u =>
      cases hread : e₁.store.read id with
      | none =>
        rw [runOp_lookup_of_none hid hens hcalm hread]
        exact h₁
      | some r =>
        have h₂ : Leads p e e₁.afterReading := h₁.trans (.frame rfl rfl rfl rfl)
        cases hnow : r.validity e₁.clock.now with
        | valid =>
          rw [runOp_lookup_of_valid hid hens hcalm hread hnow]
          exact h₂
        | timedOut =>
          rw [runOp_lookup_of_timedOut hid hens hcalm hread hnow]
          have hstored : e₁.afterReading.store.read r.id = some r := by
            rw [Roster.id_of_get? hread]
            exact hread
          cases hwrite : e₁.afterReading.updateNow r.marked with
          | mk o' e₃ =>
            cases o' with
            | error f =>
              rw [updateNow_eq_error hwrite]
              exact h₂
            | ok u =>
              have hexpired := h₂.trans (leads_expired hact hstored hnow hwrite)
              exact hexpired.trans (leads_replaceOrReport hact _ _ _)
        | _ =>
          have hended : r.validity e₁.clock.now = .stopped ∨ r.validity e₁.clock.now = .expired := by
            simp [hnow]
          obtain ⟨why, hwhy⟩ := Record.exists_endFault hended
          rw [runOp_lookup_of_ended hid hens hcalm hread hwhy]
          exact h₂.trans (leads_replaceOrReport hact _ _ _)

theorem leads_getSession (hact : Obeys p act) (id : Id) (ctx : Context) (e : Engine) :
    Leads p e (runOp act (Manager.getSession id ctx) e).2 := by
  refine leads_bind (leads_lookup hact id ctx e) fun found e' _ => ?_
  cases found with
  | found r => exact .refl e'
  | replaced old new cause => exact .refl e'
  | invalid i why => exact .refl e'

/-- The session that an operation works on is stored under its id, and live. -/
theorem getSession_stored {r : Record} (hcalm : e.Undisturbed)
    (h : runOp act (Manager.getSession id ctx) e = (.ok r, e')) :
    e'.store.read id = some r ∧ r.isTerminal = false ∧ e'.Undisturbed := by
  obtain ⟨found, e₁, hlookup, hrest⟩ := runOp_bind_eq_ok h
  cases found with
  | found r₁ =>
    cases hrest
    exact lookup_found hcalm hlookup
  | replaced old new cause => cases hrest
  | invalid i why => cases hrest

theorem getSession_found {r : Record} (hcalm : e.Undisturbed)
    (h : runOp act (Manager.getSession id ctx) e = (.ok r, e')) :
    e'.store.read r.id = some r ∧ r.isTerminal = false ∧ e'.Undisturbed := by
  obtain ⟨hread, hlive, hcalm'⟩ := getSession_stored hcalm h
  have hid : r.id = id := Roster.id_of_get? hread
  exact ⟨hid ▸ hread, hlive, hcalm'⟩

theorem leads_validateSession (hact : Obeys p act) (id : Id) (ctx : Context) (e : Engine) :
    Leads p e (runOp act (Manager.validateSession id ctx) e).2 :=
  leads_bind (leads_getSession hact id ctx e) fun _ e' _ => .refl e'

theorem leads_isValid (hact : Obeys p act) (id : Id) (ctx : Context) (e : Engine) :
    Leads p e (runOp act (Manager.isValid id ctx) e).2 := by
  unfold Manager.isValid
  split
  · exact .refl e
  · refine leads_bind ?_ fun o e' _ => ?_
    · rw [runOp_attempt]
      exact leads_validateSession hact id ctx e
    · cases o with
      | ok u => exact .refl e'
      | error f =>
        simp only
        split
        · exact .frame rfl rfl rfl rfl
        · split
          · exact .frame rfl rfl rfl rfl
          · exact .refl e'

/-! ## Changing and stopping -/

/-- What changes live records into live ones books no more than changes. -/
theorem leads_mutate {α : Type} (hact : Obeys p act) (id : Id) (ctx : Context)
    {change : Record → Timestamp → Except Fault (α × Option Record)}
    (hchange : ∀ {r now a r'}, change r now = .ok (a, some r') → r.Amends r') (e : Engine) :
    Leads p e (runOp act (Manager.mutate id ctx change) e).2 := by
  apply Leads.of_regular
  intro hreg
  have hget := leads_getSession hact id ctx e
  cases hsession : runOp act (Manager.getSession id ctx) e with
  | mk o e₁ =>
    rw [hsession] at hget
    cases o with
    | error f =>
      have hrun : runOp act (Manager.mutate id ctx change) e = (.error f, e₁) := runOp_bind_error hsession
      rw [hrun]
      exact hget
    | ok r =>
      obtain ⟨hread, _, hcalm⟩ := getSession_found hreg.undisturbed hsession
      have hafter : Leads p e e₁.afterReading := hget.trans (.frame rfl rfl rfl rfl)
      rw [runOp_mutate_of_session change hcalm hsession]
      unfold writing
      split
      · exact hafter
      · exact hafter
      · -- nobody comes between the look-up and the update: what is written over is what was found
        rename_i a r' hc
        have hstored : e₁.afterReading.store.read r.id = some r := hread
        have hwritten : Leads p e (e₁.afterReading.updateNow r').2 :=
          hafter.trans (leads_changed hstored (hchange hc) _ rfl)
        split <;> rename_i heq <;> rwa [heq] at hwritten

theorem leads_remove (hact : Obeys p act) (id : Id) (ctx : Context) (key : Text) (e : Engine) :
    Leads p e (runOp act (Manager.remove id ctx key) e).2 := by
  refine leads_mutate hact id ctx ?_ e
  intro r now a r' h
  cases hremove : r.remove key now with
  | error f =>
    rw [hremove] at h
    cases h
  | ok result =>
    obtain ⟨v, r''⟩ := result
    rw [hremove] at h
    simp only [Except.map, Except.ok.injEq, Prod.mk.injEq] at h
    obtain ⟨_, hsome⟩ := h
    split at hsome
    · cases hsome
      exact .of_remove hremove
    · cases hsome

theorem leads_change (hact : Obeys p act) (id : Id) (ctx : Context)
    {mutation : Record → Timestamp → Except Fault Record}
    (hmutation : ∀ {r now r'}, mutation r now = .ok r' → r.Amends r') (e : Engine) :
    Leads p e (runOp act (Manager.mutate id ctx fun r now =>
      (mutation r now).map fun r' => ((), some r')) e).2 := by
  refine leads_mutate hact id ctx ?_ e
  intro r now a r' h
  cases hm : mutation r now with
  | error f =>
    rw [hm] at h
    cases h
  | ok r'' =>
    rw [hm] at h
    cases h
    exact hmutation hm

theorem leads_stop (hact : Obeys p act) (id : Id) (ctx : Context) (e : Engine) :
    Leads p e (runOp act (Manager.stop id ctx) e).2 := by
  apply Leads.of_regular
  intro hreg
  have hget := leads_getSession hact id ctx e
  cases hsession : runOp act (Manager.getSession id ctx) e with
  | mk o e₁ =>
    rw [hsession] at hget
    cases o with
    | error f =>
      have hrun : runOp act (Manager.stop id ctx) e = (.error f, e₁) := runOp_bind_error hsession
      rw [hrun]
      exact hget
    | ok r =>
      obtain ⟨hread, hlive, hcalm⟩ := getSession_stored hreg.undisturbed hsession
      have hafter : Leads p e e₁.afterReading := hget.trans (.frame rfl rfl rfl rfl)
      have hstored : e₁.afterReading.store.read r.id = some r := by
        rw [Roster.id_of_get? hread]
        exact hread
      obtain ⟨stopped, hstop⟩ : ∃ stopped, r.stop e₁.clock.now = .ok stopped :=
        ⟨_, Record.stop_eq_ok_iff.2 ⟨hlive, rfl⟩⟩
      rw [runOp_stop_of_session hsession, runOp_stopNow_of_some act hcalm hread, hstop]
      simp only
      cases hwrite : e₁.afterReading.updateNow stopped with
      | mk o e₂ =>
        cases o with
        | error f =>
          rw [updateNow_eq_error hwrite]
          exact hafter
        | ok u => exact hafter.trans (leads_stopped hact hstored hstop hwrite _ _)

theorem leads_serve (hact : Obeys p act) (id : Id) (ctx : Context) (c : Call) (e : Engine) :
    Leads p e (runOp act (Manager.serve id ctx c) e).2 := by
  have hget := leads_getSession hact id ctx e
  cases c with
  | setTimeout limit => exact leads_change hact id ctx .of_setTimeout e
  | touch => exact leads_change hact id ctx .of_touch e
  | stop => exact leads_stop hact id ctx e
  | set key value =>
    change Leads p e (runOp act (Manager.set id ctx key value) e).2
    unfold Manager.set
    split
    · exact leads_bind (leads_remove hact id ctx key e) fun _ e' _ => .refl e'
    · exact leads_change hact id ctx .of_set e
  | remove key => exact leads_remove hact id ctx key e
  | checkValid => exact leads_validateSession hact id ctx e
  | _ => exact leads_bind hget fun _ e' _ => .refl e'

/-! ## Sweeping -/

theorem leads_sweepOne (hact : Obeys p act) (r : Record) (now : Timestamp) (e : Engine) :
    Leads p e (runOp act (Manager.sweepOne r now) e).2 := by
  apply Leads.of_regular
  intro hreg
  unfold Manager.sweepOne
  by_cases hcandidate : r.validity now = .timedOut
  · rw [if_pos hcandidate]
    have hcalm := hreg.undisturbed
    cases hread : e.store.read r.id with
    | none =>
      rw [runOp_bind_ok (runOp_expire_of_none hcalm hread)]
      exact .refl e
    | some c =>
      by_cases hnow : c.validity now = .timedOut
      · have hmarked := runOp_expire_of_timedOut act hcalm hread hnow
        have hstored : e.store.read c.id = some c := by
          rw [Roster.id_of_get? hread]
          exact hread
        cases hwrite : e.updateNow c.marked with
        | mk o e' =>
          rw [hwrite] at hmarked
          cases o with
          | error f =>
            rw [runOp_bind_error hmarked, updateNow_eq_error hwrite]
            exact .refl e
          | ok u =>
            rw [runOp_bind_ok hmarked]
            exact (leads_expired hact hstored hnow hwrite).trans (.frame rfl rfl rfl rfl)
      · rw [runOp_bind_ok (runOp_expire_of_not_timedOut hcalm hread hnow)]
        exact .refl e
  · rw [if_neg hcandidate]
    exact .refl e

theorem leads_sweepAll (hact : Obeys p act) (now : Timestamp) (rs : List Record)
    (t : Manager.Tally) (e : Engine) :
    Leads p e (runOp act (Manager.sweepAll now rs t) e).2 := by
  -- a listener may end or drop sessions that are still on the list; each is read again in its turn
  induction rs generalizing t e with
  | nil => exact .refl e
  | cons r rs ih =>
    rw [Manager.sweepAll, runOp_bind_ok (runOp_attempt _)]
    have hone := leads_sweepOne hact r now e
    cases hrun : runOp act (Manager.sweepOne r now) e with
    | mk o e' =>
      rw [hrun] at hone
      cases o with
      | ok marked =>
        cases marked with
        | true => exact hone.trans (ih _ e')
        | false => exact hone.trans (ih t e')
      | error f =>
        simp only
        split
        · rw [runOp_bind_ok (runOp_log _ _)]
          refine hone.trans (Leads.trans ?_ (ih _ _))
          exact .frame rfl rfl rfl rfl
        · exact hone

theorem leads_sweep (hact : Obeys p act) (e : Engine) :
    Leads p e (runOp act Manager.sweep e).2 := by
  apply Leads.of_regular
  intro hreg
  unfold Manager.sweep
  rw [runOp_bind_ok (runOp_log _ _), runOp_bind_ok runOp_clock]
  have hcalm : (e.note .info "Validating all active sessions...").afterReading.Undisturbed :=
    hreg.undisturbed
  refine Leads.trans ?_ (leads_bind ?_ fun rs e₁ _ => ?_)
  · exact .frame rfl rfl rfl rfl
  · rw [runOp_live act hcalm]
    exact .refl _
  · refine leads_bind (leads_sweepAll hact _ rs ⟨0, 0⟩ e₁) fun t e₂ _ => ?_
    exact .frame rfl rfl rfl rfl

/-! ## Commands -/

theorem client_keeps (hact : Obeys p act) (name : Text) (bound : Handle) :
    (client act name bound).Keeps (Leads p) where
  refl := .refl
  trans := .trans
  call c id ctx e := leads_serve hact id ctx c e
  setHandle _ _ := .frame rfl rfl rfl rfl
  note _ _ _ := .frame rfl rfl rfl rfl

theorem leads_performHandle (hact : Obeys p act) (name : Text) (h : Handle) (c : HandleCommand)
    (e : Engine) : Leads p e (performHandle act name h c e).2 := by
  cases c with
  | id => exact .refl e
  | replacements => exact .refl e
  | call c => exact (client_keeps hact name h).perform c e
  | isValid => exact (client_keeps hact name h).isValid e

theorem leads_performStore {c : StoreCommand} (hplain : (Command.store c).isPlain = true)
    (hp : p (.store c)) (e : Engine) : Leads p e (e.performStore c).2 := by
  cases c with
  | purge => exact .step rfl rfl rfl (.purge (l := e.ledger) hp)
  | setLimit n => exact .step rfl rfl rfl (.limit (l := e.ledger) hp)
  | remove r => exact .step rfl rfl rfl (.drop (l := e.ledger) r (e.resolve r) hp)
  | change r ops => cases hplain
  | put d => cases hplain
  | _ => exact .refl e

theorem leads_awaitSweep (hact : Obeys p act) (e : Engine) :
    Leads p e (awaitSweep act e).2 := by
  unfold awaitSweep
  split
  · exact .refl e
  · rename_i b _
    have hbefore : Leads p e { e with background := b } := .frame rfl rfl rfl rfl
    exact (hbefore.trans (leads_sweep hact _)).trans (.frame rfl rfl rfl rfl)

theorem leads_startHandle (hact : Obeys p act) (name : Text) (host : Option Text) (ctx : Context)
    (e : Engine) : Leads p e (performWith act (.startHandle name host ctx) e).2 := by
  have hstart := leads_start hact (host <|> ctx.host) e
  unfold performWith
  simp only
  split
  · rename_i heq
    rwa [heq] at hstart
  · rename_i heq
    rw [heq] at hstart
    split
    · exact hstart
    · exact hstart.trans (.frame rfl rfl rfl rfl)

theorem leads_listen {l : Listener Command} (hl : l.Orderly p) (e : Engine) :
    Leads p e (performWith act (.listen l) e).2 := by
  intro hreg
  refine ⟨⟨hreg.undisturbed, ?_⟩, rfl, .refl⟩
  intro ear hear
  rcases List.mem_append.1 hear with hold | hnew
  · exact hreg.ears ear hold
  · rw [List.mem_singleton.1 hnew]
    exact hl

/-- What is orderly leads on, whatever it is. -/
theorem performWith_leads (hact : Obeys p act) {c : Command} (hc : c.Orderly p) (e : Engine) :
    Leads p e (performWith act c e).2 := by
  cases hc with
  | listen _ hl => exact leads_listen hl e
  | plain hplain hp =>
    cases c with
    | start host => exact leads_start hact host e
    | call c r ctx => exact leads_serve hact (e.resolve r) ctx c e
    | isValid r ctx => exact leads_isValid hact (e.resolve r) ctx e
    | validate r ctx => exact leads_validateSession hact (e.resolve r) ctx e
    | getSession r ctx => exact leads_getSession hact (e.resolve r) ctx e
    | lookup r ctx => exact leads_lookup hact (e.resolve r) ctx e
    | sweep => exact leads_sweep hact e
    | awaitSweep => exact leads_awaitSweep hact e
    | store c => exact leads_performStore hplain hp e
    | setFilter filter => exact .step rfl rfl rfl (.rule (l := e.ledger) _ hp (.inl ⟨filter, rfl⟩))
    | setRequireHost on => exact .step rfl rfl rfl (.rule (l := e.ledger) _ hp (.inr ⟨on, rfl⟩))
    | startHandle name host ctx => exact leads_startHandle hact name host ctx e
    | handle name c =>
      unfold performWith
      simp only
      split
      · exact .refl e
      · exact leads_performHandle hact name _ c e
    | listen l => cases hplain
    | hook point n reaction => cases hplain
    | setInterval t =>
      unfold performWith
      simp only
      split <;> exact .frame rfl rfl rfl rfl
    | setTimer name kind =>
      unfold performWith
      simp only
      split <;> exact .frame rfl rfl rfl rfl
    | bind name r ctx =>
      unfold performWith
      simp only
      split <;> exact .frame rfl rfl rfl rfl
    | unlisten name =>
      unfold performWith
      simp only
      cases e.registry.named? name <;> exact .frame rfl rfl rfl rfl
    | _ => exact .frame rfl rfl rfl rfl

/-- The same with listeners that act inside of each other, to any depth. -/
theorem perform_leads (n : Nat) {c : Command} (hc : c.Orderly p) (e : Engine) :
    Leads p e (perform n c e).2 := by
  -- what listeners do is one level deeper, and orderly by what they are
  induction n generalizing c e with
  | zero => exact performWith_leads (fun _ e' _ => .refl e') hc e
  | succ n ih => exact performWith_leads (fun c' e' hc' => ih hc' e') hc e

/-! ## Runs -/

/-- The engine behind commands from outside, callbacks nested up to a depth. -/
def after (depth : Nat) (cs : List Command) (e : Engine) : Engine :=
  cs.foldl (fun e c => (perform depth c e).2) e

theorem after_leads (n : Nat) {cs : List Command} (hcs : ∀ c ∈ cs, c.Orderly p) (e : Engine) :
    Leads p e (after n cs e) := by
  induction cs generalizing e with
  | nil => exact .refl e
  | cons c cs ih =>
    have hc : c.Orderly p := hcs c List.mem_cons_self
    have hrest := ih (fun c' h => hcs c' (List.mem_cons_of_mem c h)) (perform n c e).2
    exact (perform_leads n hc e).trans hrest

/-- The books of an engine that did nothing yet. -/
def opening (store : Store) (admission : Admission) : Ledger :=
  ⟨store, admission, [], 0, 0, 0, 0⟩

theorem regular_of_new {s : Settings} {clock : Clock} {source : IdSource} {level : Level}
    (h : Engine.new s clock source level = .ok e) :
    e.Regular p ∧ e.source = source ∧
      e.ledger = opening (Store.new s.store)
        { Admission.lenient with requireHost := s.life.requireHost } := by
  unfold Engine.new at h
  cases hcheck : s.check with
  | error f =>
    rw [hcheck] at h
    cases h
  | ok u =>
    rw [hcheck] at h
    cases h
    exact ⟨⟨rfl, fun ear hear => absurd hear List.not_mem_nil⟩, rfl, rfl⟩

/-- The books of a run from a new engine come from empty ones by steps. -/
theorem path_of_run {s : Settings} {clock : Clock} {source : IdSource} {level : Level}
    (h : Engine.new s clock source level = .ok e) (n : Nat) {cs : List Command}
    (hcs : ∀ c ∈ cs, c.Orderly p) :
    Ledger.Path source p (opening (Store.new s.store)
        { Admission.lenient with requireHost := s.life.requireHost }) (after n cs e).ledger := by
  obtain ⟨hreg, hsource, hledger⟩ := regular_of_new (p := p) h
  obtain ⟨_, _, hpath⟩ := after_leads n hcs e hreg
  rwa [hledger, hsource] at hpath

end Engine
end Sessions
