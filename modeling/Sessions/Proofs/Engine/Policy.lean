import Sessions.Proofs.Engine.History
import Sessions.Proofs.Manager.Failure

/-!
# Sessions.Proofs.Engine.Policy

The policy on hosts, over whole runs. A session is started for a host that a client names, for the host
of a request, or for the host of a session whose place it takes, and each time the policy is asked. The
host of a record never changes, so what the policy said at the start holds for as long as there is a
record.

* `Admission.Admits` is the policy as a statement about hosts, `Admission.check_eq_ok_iff` that it is
  what is checked.
* `Ledger.Hosted` is the invariant: every record that is stored or told of has a host that the policy
  admits. `Ledger.Hosted.step`: every step of the books preserves it.
* `exists_refusal`: a start against the policy fails and leaves no trace in the books.
* `hosts_are_admitted`: what holds of any run.
-/

namespace Sessions

namespace Admission

variable {a : Admission} {host : Option Text}

/-- A host that is an address, or none where none is required, and to which the filter agrees. -/
structure Admits (a : Admission) (host : Option Text) : Prop where
  address : ∀ h, host = some h → Host.accepts h = true
  given : a.requireHost = true → host ≠ none
  agreed : ∀ agrees, a.filter = some agrees → agrees host = true

theorem passes_iff : a.passes host = true ↔ ∀ agrees, a.filter = some agrees → agrees host = true := by
  unfold passes
  cases a.filter with
  | none => simp
  | some agrees => simp

theorem check_eq_ok_iff : a.check host = .ok () ↔ a.Admits host := by
  have hsplit : a.Admits host ↔ (∀ h, host = some h → Host.accepts h = true) ∧
      (a.requireHost = true → host ≠ none) ∧ a.passes host = true := by
    rw [passes_iff]
    exact ⟨fun h => ⟨h.address, h.given, h.agreed⟩, fun h => ⟨h.1, h.2.1, h.2.2⟩⟩
  rw [hsplit]
  unfold check
  cases host with
  | some h => cases haccepts : Host.accepts h <;> cases a.passes (some h) <;> simp [haccepts]
  | none => cases a.requireHost <;> cases a.passes none <;> simp

/-- Whatever the policy does not admit it refuses. -/
theorem exists_check_eq_error (h : ¬a.Admits host) : ∃ f, a.check host = .error f := by
  cases hcheck : a.check host with
  | error f => exact ⟨f, rfl⟩
  | ok u => exact absurd (check_eq_ok_iff.1 hcheck) h

end Admission

/-- The command leaves the policy on hosts as it is. -/
def Engine.Command.KeepsPolicy (c : Engine.Command) : Prop :=
  (∀ filter, c ≠ .setFilter filter) ∧ ∀ on, c ≠ .setRequireHost on

/-! ## The books -/

namespace Ledger

variable {source : IdSource} {a : Admission} {l l' : Ledger} {store : Store}

/-- The policy is this one, and admits the host of every record that was ever stored and of every
record that was told of. -/
structure Hosted (a : Admission) (l : Ledger) : Prop where
  admission : l.admission = a
  stored : ∀ id r, l.store.read id = some r → a.Admits r.host
  contents : ∀ s ∈ l.contents, ∀ id r, s.get? id = some r → a.Admits r.host
  told : ∀ ev r, .told ev r ∈ l.journal → a.Admits r.host

/-- A new content of which every record is admitted. -/
theorem Hosted.keep (h : l.Hosted a) (hread : ∀ id r, store.read id = some r → a.Admits r.host) :
    (l.keep store).Hosted a := by
  refine ⟨h.admission, hread, ?_, ?_⟩
  · intro s hs id r hr
    rw [contents_keep] at hs
    rcases List.mem_append.1 hs with hold | hnew
    · exact h.contents s hold id r hr
    · rw [List.mem_singleton.1 hnew] at hr
      exact hread id r hr
  · intro ev r hr
    rcases List.mem_append.1 hr with hold | hnew
    · exact h.told ev r hold
    · simp at hnew

/-- The same with a record of that content told of. -/
theorem Hosted.book (h : l.Hosted a) {r : Record} (ev : Event)
    (hread : ∀ id r, store.read id = some r → a.Admits r.host) (hr : a.Admits r.host) :
    (l.book store ev r).Hosted a := by
  have hkept := h.keep hread
  have htold : ∀ ev' r', .told ev' r' ∈ (l.keep store).journal ++ [.told ev r] → a.Admits r'.host := by
    intro ev' r' hr'
    rcases List.mem_append.1 hr' with hold | hnew
    · exact hkept.told ev' r' hold
    · cases List.mem_singleton.1 hnew
      exact hr
  have hcontents : ∀ s ∈ (l.book store ev r).contents, ∀ id r, s.get? id = some r → a.Admits r.host := by
    rw [contents_book, ← contents_keep]
    exact hkept.contents
  cases ev <;> exact ⟨hkept.admission, hread, hcontents, htold⟩

/-- What is written over a record keeps its host. -/
theorem Hosted.read_update (h : l.Hosted a) {r r' : Record} (hread : l.store.read r.id = some r)
    (hhost : r'.host = r.host) (hupdate : l.store.update r' = .ok store) (id : Id) (x : Record)
    (hx : store.read id = some x) : a.Admits x.host := by
  rw [Store.read_update hupdate] at hx
  split at hx
  · cases hx
    rw [hhost]
    exact h.stored r.id r hread
  · exact h.stored id x hx

/-- What is created is admitted, and nothing else is new. -/
theorem Hosted.read_create (h : l.Hosted a) {r : Record} {lines : List LogLine} (hr : a.Admits r.host)
    (hcreate : l.store.create r = .ok (store, lines)) (id : Id) (x : Record)
    (hx : store.read id = some x) : a.Admits x.host := by
  obtain ⟨_, hfresh, hothers⟩ := Store.read_create hcreate
  by_cases hid : id = r.id
  · rw [hid, hfresh] at hx
    cases hx
    exact hr
  · rcases hothers id hid with hsame | ⟨_, hgone, _⟩
    · exact h.stored id x (hsame ▸ hx)
    · rw [hgone] at hx
      cases hx

/-- Every step of the books preserves the invariant, if the policy is left alone. -/
theorem Hosted.step (h : l.Hosted a) (hstep : Step source Engine.Command.KeepsPolicy l l') :
    l'.Hosted a := by
  cases hstep with
  | draw => exact ⟨h.admission, h.stored, h.contents, h.told⟩
  | @start host now limit store lines hcheck hcreate =>
    have hadmits : a.Admits host := h.admission ▸ Admission.check_eq_ok_iff.1 hcheck
    have hdrawn : l.draw.Hosted a := ⟨h.admission, h.stored, h.contents, h.told⟩
    exact hdrawn.book .start (h.read_create hadmits hcreate) hadmits
  | @change r r' store hread hamends hupdate =>
    exact h.keep (h.read_update hread hamends.evolves.host hupdate)
  | @stop r r' now store hread hstop hupdate =>
    have hhost := (Record.evolves_of_stop hstop).host
    exact h.book .stop (h.read_update hread hhost hupdate) (hhost ▸ h.stored r.id r hread)
  | @expire r now store hread hnow hupdate =>
    have hhost := (Record.evolves_of_expire (Record.expire_of_timedOut hnow)).host
    exact h.book .expiration (h.read_update hread hhost hupdate) (hhost ▸ h.stored r.id r hread)
  | drop ref id _ =>
    refine h.keep fun id' r hr => ?_
    rw [Store.read_remove] at hr
    split at hr
    · cases hr
    · exact h.stored id' r hr
  | purge _ =>
    refine h.keep fun id r hr => ?_
    rw [Store.read_purge, Option.filter_eq_some_iff] at hr
    exact h.stored id r hr.1
  | limit _ => exact ⟨h.admission, h.stored, h.contents, h.told⟩
  | rule admission hkeeps hrule =>
    rcases hrule with ⟨filter, rfl⟩ | ⟨on, rfl⟩
    · exact absurd rfl (hkeeps.1 filter)
    · exact absurd rfl (hkeeps.2 on)

theorem Hosted.path (h : l.Hosted a) (hpath : Path source Engine.Command.KeepsPolicy l l') :
    l'.Hosted a := by
  induction hpath with
  | refl => exact h
  | tail _ hstep ih => exact ih.step hstep

theorem hosted_opening (policy : StorePolicy) (a : Admission) :
    (Engine.opening (Store.new policy) a).Hosted a := by
  refine ⟨rfl, ?_, ?_, ?_⟩
  · intro id r hr
    cases hr
  · intro s hs id r hr
    rw [List.mem_singleton.1 hs] at hr
    cases hr
  · intro ev r hr
    cases hr

end Ledger

namespace Engine

variable {α : Type} {act : Act} {e e' : Engine} {host : Option Text}

/-! ## Refusals -/

/-- It failed, and no record, no announcement and no counter came of it. -/
def Refused (e : Engine) (o : Except Fault α × Engine) : Prop :=
  ∃ f e', o = (.error f, e') ∧ Untouched e e'

/-- A start against the policy is refused, by the policy if the background does not refuse before. -/
theorem exists_refusal (act : Act) (h : ¬e.admission.Admits host) :
    ∃ f e', runOp act (Manager.start host) e = (.error f, e') ∧ Untouched e e' := by
  cases hens : e.ensureBackground with
  | mk o e₁ =>
    have huntouched := untouched_of_ensure hens
    cases o with
    | error f => exact ⟨f, e₁, runOp_start_of_ensure_error hens, huntouched⟩
    | ok u =>
      have hsame : e₁.admission = e.admission := by
        obtain ⟨b, lines, _, rfl⟩ := ensureBackground_eq_ok hens
        rfl
      obtain ⟨f, hf⟩ := Admission.exists_check_eq_error (hsame ▸ h)
      exact ⟨f, e₁, runOp_start_of_check_error hens hf, huntouched⟩

theorem refused_start (act : Act) (h : ¬e.admission.Admits host) :
    Refused e (performWith act (.start host) e) := by
  obtain ⟨f, e', hrun, huntouched⟩ := exists_refusal act h
  refine ⟨f, e', ?_, huntouched⟩
  rw [performWith, runReply, hrun]
  rfl

theorem refused_startHandle (act : Act) {ctx : Context} (h : ¬e.admission.Admits (host <|> ctx.host))
    (name : Text) : Refused e (performWith act (.startHandle name host ctx) e) := by
  obtain ⟨f, e', hrun, huntouched⟩ := exists_refusal act h
  refine ⟨f, e', ?_, huntouched⟩
  rw [performWith, hrun]

theorem refused_replacement (act : Act) {ctx : Context} (h : ¬e.admission.Admits (host <|> ctx.host))
    (hauto : e.autoCreate = true) (id : Id) (why : Fault) :
    Refused e (runOp act (Manager.replaceOrReport id host ctx why) e) := by
  obtain ⟨f, e', hrun, huntouched⟩ := exists_refusal act h
  exact ⟨f, e', runOp_replace_of_error hauto hrun, huntouched⟩

/-! ## Every run -/

/-- The commands that set a policy. -/
def policing (a : Admission) : List Command := [.setRequireHost a.requireHost, .setFilter a.filter]

theorem after_policing (depth : Nat) (a : Admission) (cs : List Command) (e : Engine) :
    after depth (policing a ++ cs) e = after depth cs { e with admission := a } := by
  cases depth <;> rfl

/-- **Hosts are admitted.** Over any run of commands that go through the manager, under a policy on
hosts that is set at the beginning and left alone from then on, however the commands of listeners nest:
in every content that the store ever has, and in every announcement, the host of every record is one
that the policy admits. And a start for a host that the policy in force does not admit is refused,
wherever it comes in a run: whether it is asked for by its host, for a handle, or in the place of a
session that ended, it fails, and store, journal and counters stay as they were. -/
theorem hosts_are_admitted {settings : Settings} {clock : Clock} {source : IdSource} {level : Level}
    (hnew : Engine.new settings clock source level = .ok e) (depth : Nat) (a : Admission)
    {cs : List Command} (hcs : ∀ c ∈ cs, c.Orderly Command.KeepsPolicy)
    (hrun : after depth (policing a ++ cs) e = e') :
    (∀ s ∈ e'.ledger.contents, ∀ id r, s.get? id = some r → a.Admits r.host) ∧
    (∀ id r, e'.store.read id = some r → a.Admits r.host) ∧
    (∀ ev r, .told ev r ∈ e'.journal → a.Admits r.host) ∧
    e'.admission = a ∧
    ∀ (act : Act) (e₁ : Engine) (host : Option Text) (ctx : Context),
      (¬e₁.admission.Admits host → Refused e₁ (performWith act (.start host) e₁)) ∧
      (¬e₁.admission.Admits (host <|> ctx.host) →
        (∀ name, Refused e₁ (performWith act (.startHandle name host ctx) e₁)) ∧
        (e₁.autoCreate = true →
          ∀ id why, Refused e₁ (runOp act (Manager.replaceOrReport id host ctx why) e₁))) := by
  obtain ⟨hreg, hsource, hledger⟩ := regular_of_new (p := Command.KeepsPolicy) hnew
  have hreg' : { e with admission := a }.Regular Command.KeepsPolicy := ⟨hreg.undisturbed, hreg.ears⟩
  obtain ⟨_, _, hpath⟩ := after_leads depth hcs _ hreg'
  have hopening : { e with admission := a }.ledger = opening (Store.new settings.store) a :=
    congrArg (fun l : Ledger => { l with admission := a }) hledger
  rw [after_policing] at hrun
  rw [hopening, hrun] at hpath
  have hhosted := (Ledger.hosted_opening settings.store a).path hpath
  refine ⟨hhosted.contents, hhosted.stored, hhosted.told, hhosted.admission, ?_⟩
  intro act e₁ host ctx
  refine ⟨refused_start act, fun h => ⟨refused_startHandle act h, refused_replacement act h⟩⟩

/-- A policy for a network of which every client has to give its address. -/
def network : Admission := ⟨true, some (Admission.startsWith ["10."] false)⟩

/-- One session is started, and two more in its place, one after the other; another one is started for a
handle, with the host of its requests. Hosts from elsewhere, malformed ones and missing ones are refused,
also in the place of a session that ended. -/
theorem hosts_are_admitted_through_replacements :
    ∃ e e' : Engine, Engine.new {} (.still 7) (fun n => (0, n.toUInt64)) .silent = .ok e ∧
      after 1 (policing network ++ [.start (some "10.0.0.1"), .start (some "192.168.0.1"), .start none,
        .start (some "10.0.0.256"), .advanceClock 1800001, .call .touch (.started 1 []) ⟨none⟩,
        .advanceClock 1800001, .call .touch (.started 2 []) ⟨some "192.168.0.1"⟩,
        .startHandle "h" none ⟨some "10.0.0.2"⟩, .startHandle "h" none ⟨none⟩]) e = e' ∧
      e'.stats.started = 4 ∧ e'.store.size = 4 ∧
      (∀ id r, e'.store.read id = some r → network.Admits r.host) ∧
      (∃ r, e'.store.read (Id.ofWords (0, 2)) = some r ∧ r.host = some "10.0.0.1") ∧
      ¬network.Admits none ∧ Refused e' (performWith (perform 0) (.start none) e') := by
  let cs : List Command := [.start (some "10.0.0.1"), .start (some "192.168.0.1"), .start none,
    .start (some "10.0.0.256"), .advanceClock 1800001, .call .touch (.started 1 []) ⟨none⟩,
    .advanceClock 1800001, .call .touch (.started 2 []) ⟨some "192.168.0.1"⟩,
    .startHandle "h" none ⟨some "10.0.0.2"⟩, .startHandle "h" none ⟨none⟩]
  have hcs : ∀ c ∈ cs, c.Orderly Command.KeepsPolicy := by
    simp only [cs, List.forall_mem_cons, List.not_mem_nil, false_imp_iff, implies_true, and_true]
    refine ⟨?_, ?_, ?_, ?_, ?_, ?_, ?_, ?_, ?_, ?_⟩ <;> exact .plain rfl ⟨nofun, nofun⟩
  have hnone : ¬network.Admits none := fun h => h.given rfl rfl
  have hall : ∀ e', after 1 (policing network ++ cs) (blank {} (.still 7) (fun n => (0, n.toUInt64))
      .silent) = e' → (∀ id r, e'.store.read id = some r → network.Admits r.host) ∧
        Refused e' (performWith (perform 0) (.start none) e') := by
    intro e' he'
    obtain ⟨_, hstored, _, hpolicy, hrefused⟩ :=
      @hosts_are_admitted _ _ {} (.still 7) (fun n => (0, n.toUInt64)) .silent rfl 1 network cs hcs he'
    refine ⟨hstored, (hrefused (perform 0) e' none ⟨none⟩).1 ?_⟩
    rw [hpolicy]
    exact hnone
  obtain ⟨hstored, hrefused⟩ := hall _ rfl
  exact ⟨_, _, rfl, rfl, by decide +kernel, by decide +kernel, hstored,
    ⟨Record.new (Id.ofWords (0, 2)) 3600009 (some "10.0.0.1") 1800000, by decide +kernel, rfl⟩, hnone,
    hrefused⟩

end Engine
end Sessions
