import Sessions.Proofs.Handle.Probe
import Sessions.Proofs.Manager.Asking
import Sessions.Proofs.Manager.Service

/-!
# Sessions.Proofs.Handle.Absorption

A handle over the manager itself. On an undisturbed store, with replacements switched on and listeners
that ask for nothing, a client of the handle never learns that its session has ended: the operation
is carried out on the session that took its place.

* `exists_reached`: the session is valid, and one call does it.
* `exists_followed`: the session has ended; the call finds that out, and the handle follows.
  `exists_absorbed`: what the operation comes to then.
* `Absorbs` puts the cases together, with what else can stand in the way.
* `handle_absorbs_replacements`: every operation, and the probe.
-/

namespace Sessions

theorem Id.ofWords_ne_nil (w : UInt64 × UInt64) : Id.ofWords w ≠ [] := by
  have hmark : mark ≠ [] := by decide
  simp [ofWords, hmark]

theorem Fault.isReplacement_of_not_declines {f : Fault} (h : f.declines = false) :
    f.isReplacement = false := by
  cases f <;> first | rfl | cases h

theorem Fault.isInvalidSession_of_not_declines {f : Fault} (h : f.declines = false) :
    f.isInvalidSession = false := by
  cases f <;> first | rfl | cases h

/-- Of a session that has just begun the stand-in answers are the true ones. -/
theorem Call.onFresh_of_blank {c : Call} {b : c.Result} (h : c.blank = some b) (r : Record)
    (now : Timestamp) : c.onFresh r now = (.ok b, r) := by
  cases c with
  | touch => rfl
  | keys =>
    cases h
    rfl
  | get key =>
    cases h
    rfl
  | _ => simp [blank] at h

theorem Call.ne_stop_of_blank {c : Call} {b : c.Result} (h : c.blank = some b) : c ≠ .stop := by
  rintro rfl
  cases h

namespace Engine

variable {act : Act} {e e' : Engine} {name : Text} {h : Handle} {r : Record} {id : Id} {ctx : Context}

/-! ## The first call -/

/-- What the listeners are told of the validation of a record. -/
def expiryNotices (r : Record) (now : Timestamp) : List (Event × Record) :=
  if r.validity now = .timedOut then [(.expiration, r.marked)] else []

theorem Superseded.announced {now : Timestamp} {fresh : Record} (hs : Superseded e e' r now fresh) :
    e'.announced = e.announced ++ expiryNotices r now ++ [(.start, fresh)] := by
  have hjournal := hs.journal
  rw [List.append_assoc] at hjournal
  rw [announced_append hjournal, List.append_assoc]
  congr 1
  rw [List.filterMap_append, expiryEntries, expiryNotices]
  split <;> rfl

theorem Superseded.started {now : Timestamp} {fresh : Record} (hs : Superseded e e' r now fresh) :
    e'.stats.started = e.stats.started + 1 := by
  rw [hs.stats, expiryStats]
  split <;> rfl

theorem exists_replaced (act : Act) (ctx : Context) (hid : id ≠ []) (hcalm : e.disturbance = .calm)
    (hpassive : e.Passive) (hens : e.ensureBackground = (.ok (), e'))
    (hread : e.store.read id = some r) (hnow : r.validity e.clock.now ≠ .valid)
    (hfresh : e.store.read e.draw.1 = none) (hauto : e.autoCreate = true)
    (hcheck : e.admission.check (r.host <|> ctx.host) = .ok ()) :
    ∃ cause e₁, runOp act (Manager.getSession id ctx) e =
        (.error (.replaced id e.draw.1 cause), e₁) ∧
      Superseded e e₁ r e.clock.now
        (Record.new e.draw.1 e.clock.read.2.now (r.host <|> ctx.host) e.timeout) ∧
      e₁.clock = e.clock.read.2.read.2 ∧
      e₁.background.ensure = (.ok (), e₁.background, []) ∧ SameSetting e e₁ := by
  obtain ⟨why, code, hwhy, hcode, _⟩ := exists_reason hnow
  have hpoised := poised_judged act hpassive hens r
  obtain ⟨e₁, hrun, hsuperseded, hclock⟩ :=
    replaced_of_poised act hpoised hcalm hread hnow hfresh hauto hcheck hcode
  have hlookup := runOp_lookup_of_invalid act ctx hid hcalm hens hread hwhy
  rw [hrun] at hlookup
  have hsession := runOp_getSession_of_ok hlookup
  have hsetting := sameSetting_runOp act (undisturbed_of_calm hcalm) hpassive
    (Manager.getSession id ctx)
  rw [hsession] at hsetting
  -- the background was seen to before the session was judged, and was not touched afterwards
  have hlater := sameSetting_runOp act (undisturbed_of_calm (hpoised.disturbance.trans hcalm))
    hpoised.passive (Manager.replaceOrReport id r.host ctx why)
  rw [hrun] at hlater
  have hsettled : e₁.background.ensure = (.ok (), e₁.background, []) := by
    rw [hlater.background hpoised.background]
    exact hpoised.background
  exact ⟨code, e₁, hsession, hsuperseded, hclock, hsettled, hsetting⟩

/-! ## The handle -/

theorem lookup_hold (e : Engine) (name : Text) (h : Handle) :
    (e.hold name h).handles.lookup name = some h := by
  simp [hold]

/-- A handle stands for a stored session, and nothing but the state of that session can be in the way
of a client. -/
structure Stands (e : Engine) (name : Text) (h : Handle) (r : Record) : Prop where
  held : e.handles.lookup name = some h
  id : h.id ≠ []
  read : e.store.read h.id = some r
  calm : e.disturbance = .calm
  passive : e.Passive
  autoCreate : e.autoCreate = true
  check : e.admission.check (r.host <|> h.context.host) = .ok ()
  rests : e.clock.Rests 4

/-- In the place of a handle there is one that is bound like it. -/
def Holds (e : Engine) (name : Text) (h : Handle) : Prop :=
  ∃ h', e.handles.lookup name = some h' ∧ h.Alike h'

theorem holds_of_lookup (hheld : e.handles.lookup name = some h) : e.Holds name h :=
  ⟨h, hheld, .refl h⟩

theorem holds_hold {h' : Handle} (halike : h.Alike h') : (e.hold name h').Holds name h :=
  ⟨h', lookup_hold e name h', halike⟩

/-- A call of a handle is answered by the manager, which does not know the handle. -/
theorem callBound_of_serve (hheld : e.handles.lookup name = some h) (hcalm : e.disturbance = .calm)
    (hpassive : e.Passive) (bound : Handle) {c : Call} {o : Except Fault c.Result}
    (hserve : runOp act (Manager.serve h.id h.context c) e = (o, e')) :
    (client act name bound).callBound c e = (o, e') ∧ e'.handles.lookup name = some h := by
  have hsetting := sameSetting_runOp act (undisturbed_of_calm hcalm) hpassive
    (Manager.serve h.id h.context c)
  rw [hserve] at hsetting
  refine ⟨?_, by rw [hsetting.handles, hheld]⟩
  rw [Client.callBound, client_handle act hheld]
  exact hserve

/-- Behind an operation stands what its last call left, but for what the handle remembers of the
answer. -/
theorem exists_remembered {c : Call} {o : Except Fault c.Result} {bound : Handle}
    (hheld : e'.handles.lookup name = some h)
    (hp : (client act name bound).perform c e = (o, e') ∨
      ∃ h', ((client act name bound).handle e').Alike h' ∧
        (client act name bound).perform c e = (o, (client act name bound).setHandle h' e')) :
    ∃ e'', (client act name bound).perform c e = (o, e'') ∧ e''.Holds name h ∧ Untouched e' e'' := by
  rcases hp with hp | ⟨h', halike, hp⟩
  · exact ⟨e', hp, holds_of_lookup hheld, rfl, rfl, rfl⟩
  · rw [client_handle act hheld] at halike
    exact ⟨_, hp, holds_hold halike, rfl, rfl, rfl⟩

/-- One call, whose answer is no replacement. -/
theorem exists_performed (hheld : e.handles.lookup name = some h) {c : Call}
    {o : Except Fault c.Result} (hnew : h.recalled c = none) (herase : c.isErasure = false)
    (hcall : (client act name h).callBound c e = (o, e')) (hheld' : e'.handles.lookup name = some h)
    (hfault : ∀ f, o = .error f → f.isReplacement = false) :
    ∃ e'', (client act name h).perform c e = (o, e'') ∧ e''.Holds name h ∧ Untouched e' e'' := by
  rw [← client_handle act hheld h] at hnew
  exact exists_remembered hheld' (Client.perform_of_call herase hnew hcall hfault)

/-! ## A valid session -/

/-- An operation reached the valid session that the handle is bound to. -/
structure Reached (c : Call) (e e' : Engine) (name : Text) (h : Handle) (r : Record) : Prop where
  bound : e'.Holds name h
  served : Served c e e' r e.clock.now

theorem exists_reached (act : Act) (hs : Stands e name h r) (hens : e.ensureBackground = (.ok (), e'))
    (hnow : r.validity e.clock.now = .valid) {c : Call} (hnew : h.recalled c = none)
    (herase : c.isErasure = false) :
    ∃ e'', (client act name h).perform c e = ((c.outcome r e.clock.now).1, e'') ∧
      Reached c e e'' name h r := by
  obtain ⟨e₁, hserve, hserved⟩ :=
    exists_served act h.context hs.id hs.calm hs.passive hens hs.read hnow c
  rw [hs.rests.now_read (by decide)] at hserve hserved
  obtain ⟨hcall, hheld₁⟩ := callBound_of_serve hs.held hs.calm hs.passive h hserve
  have hfault : ∀ f, (c.outcome r e.clock.now).1 = .error f → f.isReplacement = false := by
    intro f hf
    rw [(Call.outcome_eq_error (Record.isTerminal_of_validity (Or.inl hnow)) hf).1]
    rfl
  obtain ⟨e₂, hp, hbound, huntouched⟩ := exists_performed hs.held hnew herase hcall hheld₁ hfault
  exact ⟨e₂, hp, hbound, hserved.untouched huntouched⟩

/-! ## A replaced session -/

/-- The handle follows the replacement of an ended session, and a further call can be made. -/
structure Followed (e e' : Engine) (name : Text) (h : Handle) (r fresh : Record) : Prop where
  held : e'.handles.lookup name = some (h.rebind fresh.id)
  read : e'.store.read fresh.id = some fresh
  announced : e'.announced = e.announced ++ expiryNotices r e.clock.now ++ [(.start, fresh)]
  started : e'.stats.started = e.stats.started + 1
  now : e'.clock.now = e.clock.now
  rests : e'.clock.Rests 2
  background : e'.ensureBackground = (.ok (), e')
  disturbance : e'.disturbance = .calm
  passive : e'.Passive

/-- An operation was carried out on the session that took the place of an ended one. -/
structure Absorbed (c : Call) (e e' : Engine) (name : Text) (h : Handle) (r fresh : Record) :
    Prop where
  bound : e'.Holds name (h.rebind fresh.id)
  read : e'.store.read fresh.id = some (c.onFresh fresh e.clock.now).2
  announced : e'.announced = e.announced ++ expiryNotices r e.clock.now ++ [(.start, fresh)] ++
    if c = .stop then [(.stop, (c.onFresh fresh e.clock.now).2)] else []
  started : e'.stats.started = e.stats.started + 1

theorem exists_followed (act : Act) (hs : Stands e name h r)
    (hens : e.ensureBackground = (.ok (), e')) (hnow : r.validity e.clock.now ≠ .valid)
    (hfresh : e.store.read e.draw.1 = none) (c : Call) :
    ∃ cause e₁, (client act name h).callBound c e =
        (.error (.replaced h.id e.draw.1 cause), e₁) ∧
      Followed e ((client act name h).follow h.id e.draw.1 e₁) name h r
        (e.fresh (r.host <|> h.context.host)) := by
  obtain ⟨cause, e₁, hsession, hsuperseded, hclock, hsettled, hsetting⟩ :=
    exists_replaced act h.context hs.id hs.calm hs.passive hens hs.read hnow hfresh hs.autoCreate
      hs.check
  rw [hs.rests.now_read (by decide)] at hsuperseded
  obtain ⟨hcall, hheld₁⟩ :=
    callBound_of_serve hs.held hs.calm hs.passive h (runOp_serve_of_error hsession c)
  refine ⟨cause, e₁, hcall, ?_⟩
  let e₂ := e₁.note .debug ("Session handle rebinding from " ++ h.id ++ " to " ++ e.draw.1)
  have hfollow : (client act name h).follow h.id e.draw.1 e₁ = e₂.hold name (h.rebind e.draw.1) := by
    have hhandle : (client act name h).handle e₂ = h := client_handle act hheld₁ h
    rw [Client.follow, Client.update]
    change e₂.hold name (((client act name h).handle e₂).rebind e.draw.1) = _
    rw [hhandle]
  rw [hfollow]
  obtain ⟨lines, hcreate⟩ := hsuperseded.store
  have hrests := hs.rests.read (by decide)
  refine ⟨lookup_hold e₂ name _, (Store.read_create hcreate).2.1, hsuperseded.announced,
    hsuperseded.started, ?_, ?_, ensureBackground_again hsettled,
    hsetting.disturbance.trans hs.calm, hsetting.passive⟩
  · change e₁.clock.now = _
    rw [hclock, hrests.now_read (by decide), hs.rests.now_read (by decide)]
  · change e₁.clock.Rests 2
    rw [hclock]
    exact hrests.read (by decide)

/-- The further call is carried out on the fresh session, which is valid at the time at which it
began. -/
theorem Followed.exists_absorbed (act : Act) {host : Option Text}
    (hf : Followed e e' name h r (e.fresh host)) (c : Call) :
    ∃ e'', (client act name h).callBound c e' =
        ((c.onFresh (e.fresh host) e.clock.now).1, e'') ∧
      e''.handles.lookup name = some (h.rebind (e.fresh host).id) ∧
      Absorbed c e e'' name h r (e.fresh host) := by
  have hvalid : (e.fresh host).validity e'.clock.now = .valid := by
    rw [hf.now]
    exact Record.validity_new _ _ _
  have hid : (e.fresh host).id ≠ [] := Id.ofWords_ne_nil _
  obtain ⟨e'', hserve, hserved⟩ := exists_served act h.context hid hf.disturbance hf.passive
    hf.background hf.read hvalid c
  have houtcome : c.outcome (e.fresh host) e.clock.now = c.onFresh (e.fresh host) e.clock.now :=
    Call.outcome_new c e.draw.1 e.clock.now host e.timeout
  rw [hf.rests.now_read (by decide), hf.now] at hserve hserved
  obtain ⟨hcall, hheld⟩ := callBound_of_serve hf.held hf.disturbance hf.passive h hserve
  have hread := hserved.read hf.read
  have hannounced := hserved.announced
  rw [houtcome] at hcall hread hannounced
  rw [hf.announced] at hannounced
  exact ⟨e'', hcall, hheld, holds_of_lookup hheld, hread, hannounced, hserved.started.trans hf.started⟩

theorem exists_absorbed (act : Act) (hs : Stands e name h r)
    (hens : e.ensureBackground = (.ok (), e')) (hnow : r.validity e.clock.now ≠ .valid)
    (hfresh : e.store.read e.draw.1 = none) {c : Call} (hnew : h.recalled c = none)
    (herase : c.isErasure = false) :
    ∃ e'', (client act name h).perform c e =
        ((c.onFresh (e.fresh (r.host <|> h.context.host)) e.clock.now).1, e'') ∧
      Absorbed c e e'' name h r (e.fresh (r.host <|> h.context.host)) := by
  obtain ⟨cause, e₁, hcall, hfollowed⟩ := exists_followed act hs hens hnow hfresh c
  -- with a stand-in answer the fresh session is not called for
  cases hblank : c.blank with
  | some b =>
    rw [Client.perform_of_blank hblank, Client.absorb_of_replaced hcall,
      Call.onFresh_of_blank hblank]
    refine ⟨_, rfl, holds_of_lookup hfollowed.held, ?_, ?_, hfollowed.started⟩
    · rw [Call.onFresh_of_blank hblank]
      exact hfollowed.read
    · rw [if_neg (Call.ne_stop_of_blank hblank), List.append_nil]
      exact hfollowed.announced
  | none =>
    obtain ⟨e₃, hagain, hheld₃, habsorbed⟩ := hfollowed.exists_absorbed act c
    have hfault : ∀ f, (c.onFresh (e.fresh (r.host <|> h.context.host)) e.clock.now).1 = .error f →
        f.isReplacement = false := by
      intro f hf
      rw [(Call.onFresh_eq_error hf).1]
      rfl
    rw [← client_handle act hs.held h] at hnew
    obtain ⟨e₄, hp, hbound, huntouched⟩ := exists_remembered hheld₃
      (Client.perform_of_replaced hblank herase hnew hcall hagain hfault)
    exact ⟨e₄, hp, hbound, by rw [huntouched.store, habsorbed.read],
      by rw [huntouched.announced, habsorbed.announced], by rw [huntouched.stats, habsorbed.started]⟩

/-! ## Other faults -/

theorem exists_failed (act : Act) (hs : Stands e name h r) {f : Fault}
    (hsession : runOp act (Manager.getSession h.id h.context) e = (.error f, e'))
    (hf : f.isReplacement = false) {c : Call} (hnew : h.recalled c = none)
    (herase : c.isErasure = false) :
    ∃ e'', (client act name h).perform c e = (.error f, e'') ∧ e''.Holds name h ∧
      Untouched e' e'' := by
  obtain ⟨hcall, hheld'⟩ :=
    callBound_of_serve hs.held hs.calm hs.passive h (runOp_serve_of_error hsession c)
  refine exists_performed hs.held hnew herase hcall hheld' ?_
  intro g hg
  cases hg
  exact hf

theorem getSession_of_taken (act : Act) (hs : Stands e name h r)
    (hens : e.ensureBackground = (.ok (), e')) (hnow : r.validity e.clock.now ≠ .valid)
    (htaken : e.store.contains e.draw.1 = true) :
    (runOp act (Manager.getSession h.id h.context) e).1 = .error (Fault.duplicate e.draw.1) := by
  obtain ⟨g, hsession, hg⟩ := getSession_of_invalid act h.context hs.id hs.calm hens hs.read hnow
  have hpoised := poised_judged act hs.passive hens r
  have hstart := (start_eq_error_iff act hpoised hs.calm hs.read hnow).2
    (.inr ⟨hs.check, htaken, rfl⟩)
  rw [hsession, (hg _ rfl).2 ⟨by rw [hpoised.autoCreate, hs.autoCreate], hstart⟩]

/-! ## All operations -/

/-- What an operation through a handle comes to, where it is not answered from memory. -/
structure Absorbs (c : Call) (e : Engine) (name : Text) (h : Handle) (r : Record)
    (o : Except Fault c.Result) (e' : Engine) : Prop where
  refused : ∀ f, e.ensureBackground.1 = .error f →
    o = .error f ∧ e'.Holds name h ∧ Untouched e e'
  valid : e.ensureBackground.1 = .ok () → r.validity e.clock.now = .valid →
    o = (c.outcome r e.clock.now).1 ∧ Reached c e e' name h r
  replaced : e.ensureBackground.1 = .ok () → r.validity e.clock.now ≠ .valid →
    e.store.read e.draw.1 = none →
      o = (c.onFresh (e.fresh (r.host <|> h.context.host)) e.clock.now).1 ∧
        Absorbed c e e' name h r (e.fresh (r.host <|> h.context.host))
  taken : e.ensureBackground.1 = .ok () → r.validity e.clock.now ≠ .valid →
    e.store.contains e.draw.1 = true → o = .error (Fault.duplicate e.draw.1)

theorem Absorbs.fault {c : Call} {f : Fault} (ha : Absorbs c e name h r (.error f) e')
    (hens : e.ensureBackground.1 = .ok ())
    (hor : r.validity e.clock.now = .valid ∨ e.store.read e.draw.1 = none) :
    f = Fault.keyMalformed [] ∧ ∃ value, value ≠ .absent ∧ c = .set [] value := by
  by_cases hnow : r.validity e.clock.now = .valid
  · have hlive := Record.isTerminal_of_validity (Or.inl hnow)
    exact Call.outcome_eq_error hlive (ha.valid hens hnow).1.symm
  · have hfresh := hor.resolve_left hnow
    exact Call.onFresh_eq_error (ha.replaced hens hnow hfresh).1.symm

theorem Absorbs.declines_eq_false {c : Call} {f : Fault} (ha : Absorbs c e name h r (.error f) e') :
    f.declines = false := by
  cases hens : e.ensureBackground.1 with
  | error g =>
    cases (ha.refused g hens).1
    exact not_declines_of_ensure hens
  | ok u =>
    by_cases hor : r.validity e.clock.now = .valid ∨ e.store.read e.draw.1 = none
    · rw [(ha.fault hens hor).1]
      rfl
    · obtain ⟨hnow, hfresh⟩ := not_or.1 hor
      obtain ⟨x, htaken⟩ := Option.ne_none_iff_exists'.1 hfresh
      cases ha.taken hens hnow (Store.contains_of_read htaken)
      rfl

theorem Absorbs.erasure {key : Text} {o : Except Fault (Option Value)}
    (ha : Absorbs (.remove key) e name h r o e') :
    Absorbs (.set key .absent) e name h r (o.map fun _ => ()) e' := by
  refine ⟨fun f hf => ?_, fun hok hnow => ?_, fun hok hnow hfresh => ?_, fun hok hnow htaken => ?_⟩
  · obtain ⟨rfl, hrest⟩ := ha.refused f hf
    exact ⟨rfl, hrest⟩
  -- both write the same; they differ by the answer of the removal
  · obtain ⟨rfl, hreached⟩ := ha.valid hok hnow
    refine ⟨?_, hreached.bound, ?_, hreached.served.announced, hreached.served.stats⟩
    · rw [Call.outcome, Call.outcome, Call.effect_erasure]
      cases (Call.remove key).effect r e.clock.now <;> rfl
    · rw [Call.written_erasure]
      exact hreached.served.store
  · obtain ⟨rfl, habsorbed⟩ := ha.replaced hok hnow hfresh
    exact ⟨rfl, habsorbed.bound, habsorbed.read, habsorbed.announced, habsorbed.started⟩
  · rw [ha.taken hok hnow htaken]
    rfl

theorem absorbs_of_not_erasure (act : Act) (hs : Stands e name h r) {c : Call}
    (hnew : h.recalled c = none) (herase : c.isErasure = false) :
    Absorbs c e name h r ((client act name h).perform c e).1 ((client act name h).perform c e).2 := by
  refine ⟨fun f hf => ?_, fun hok hnow => ?_, fun hok hnow hfresh => ?_, fun hok hnow htaken => ?_⟩
  · have hens : e.ensureBackground = (.error f, e.ensureBackground.2) := Prod.ext hf rfl
    have hreplacement := Fault.isReplacement_of_not_declines (not_declines_of_ensure hf)
    obtain ⟨e'', hp, hbound, huntouched⟩ := exists_failed act hs
      (runOp_getSession_of_ensure_error hs.id hens) hreplacement hnew herase
    rw [hp]
    exact ⟨rfl, hbound, huntouched.store, huntouched.journal, huntouched.stats⟩
  · have hens : e.ensureBackground = (.ok (), e.ensureBackground.2) := Prod.ext hok rfl
    obtain ⟨e'', hp, hreached⟩ := exists_reached act hs hens hnow hnew herase
    rw [hp]
    exact ⟨rfl, hreached⟩
  · have hens : e.ensureBackground = (.ok (), e.ensureBackground.2) := Prod.ext hok rfl
    obtain ⟨e'', hp, habsorbed⟩ := exists_absorbed act hs hens hnow hfresh hnew herase
    rw [hp]
    exact ⟨rfl, habsorbed⟩
  · have hens : e.ensureBackground = (.ok (), e.ensureBackground.2) := Prod.ext hok rfl
    have hsession := getSession_of_taken act hs hens hnow htaken
    obtain ⟨e'', hp, _⟩ := exists_failed act hs (Prod.ext hsession rfl) rfl hnew herase
    rw [hp]

theorem absorbs_perform (act : Act) (hs : Stands e name h r) {c : Call}
    (hnew : h.recalled c = none) :
    Absorbs c e name h r ((client act name h).perform c e).1 ((client act name h).perform c e).2 := by
  cases herase : c.isErasure with
  | false => exact absorbs_of_not_erasure act hs hnew herase
  | true =>
    obtain ⟨key, rfl⟩ : ∃ key, c = .set key .absent := by
      unfold Call.isErasure at herase
      split at herase
      · exact ⟨_, rfl⟩
      · cases herase
    rw [Client.perform_erasure]
    exact Absorbs.erasure (absorbs_of_not_erasure act hs rfl rfl)

/-- The probe says "yes" where the check goes through, and fails with it otherwise: no fault that it
can meet is a "no". -/
theorem isValid_eq_check (act : Act) (hs : Stands e name h r) :
    (client act name h).isValid e = (((client act name h).perform .checkValid e).1.map fun _ => true,
      ((client act name h).perform .checkValid e).2) := by
  have habsorbs := absorbs_perform (c := .checkValid) act hs rfl
  unfold Client.isValid
  cases hp : (client act name h).perform .checkValid e with
  | mk o e' =>
    rw [hp] at habsorbs
    cases o with
    | ok u => rfl
    | error f =>
      have hf := Fault.isInvalidSession_of_not_declines habsorbs.declines_eq_false
      simp only [hf, Bool.false_eq_true, if_false]
      rfl

/-- **A handle absorbs replacements.** On an undisturbed store, with replacements switched on, a host
that is not refused, listeners that ask for nothing and a clock that stands still, for a handle that
is bound to any stored session:

* What the handle remembers is answered without a call.
* If the background refuses then so does every other operation, and nothing changes.
* On a valid session an operation comes to what it comes to on the record, and the binding stays.
* In the place of an invalid session one new session is started, which the handle is then bound to; the
  operation comes to what it comes to on a session that has just begun. Only an id that is taken stands
  in the way of that.

No operation fails for an invalid session; past background and ids the one fault is that of a value
that is written without a key. The probe is a check. -/
theorem handle_absorbs_replacements (act : Act) {e : Engine} {name : Text} {h : Handle} {r : Record}
    (hheld : e.handles.lookup name = some h) (hid : h.id ≠ []) (hread : e.store.read h.id = some r)
    (hcalm : e.disturbance = .calm) (hpassive : e.Passive) (hauto : e.autoCreate = true)
    (hcheck : e.admission.check (r.host <|> h.context.host) = .ok ()) (hstill : e.clock.Rests 4) :
    (∀ c a, h.recalled c = some a → (client act name h).perform c e = (.ok a, e)) ∧
    (∀ c, h.recalled c = none → Absorbs c e name h r ((client act name h).perform c e).1
      ((client act name h).perform c e).2) ∧
    (∀ c f, ((client act name h).perform c e).1 = .error f → f.isInvalidSession = false ∧
      (e.ensureBackground.1 = .ok () →
        r.validity e.clock.now = .valid ∨ e.store.read e.draw.1 = none →
          f = Fault.keyMalformed [] ∧ ∃ value, value ≠ .absent ∧ c = .set [] value)) ∧
    (client act name h).isValid e = (((client act name h).perform .checkValid e).1.map fun _ => true,
      ((client act name h).perform .checkValid e).2) := by
  have hs : Stands e name h r := ⟨hheld, hid, hread, hcalm, hpassive, hauto, hcheck, hstill⟩
  have hrecalled : ∀ c a, h.recalled c = some a → (client act name h).perform c e = (.ok a, e) := by
    intro c a ha
    rw [← client_handle act hheld h] at ha
    exact Client.perform_of_recalled ha
  have habsorbs : ∀ c, h.recalled c = none → Absorbs c e name h r
      ((client act name h).perform c e).1 ((client act name h).perform c e).2 :=
    fun c hnew => absorbs_perform act hs hnew
  refine ⟨hrecalled, habsorbs, fun c f hf => ?_, isValid_eq_check act hs⟩
  cases hnew : h.recalled c with
  | some a =>
    rw [hrecalled c a hnew] at hf
    cases hf
  | none =>
    have ha := habsorbs c hnew
    rw [hf] at ha
    exact ⟨Fault.isInvalidSession_of_not_declines ha.declines_eq_false, ha.fault⟩

/-- An attribute is written through a handle whose session is timed out. -/
theorem handle_absorbs_timed_out_session :
    ∃ e : Engine,
      e = after 1 [.start (some "10.0.0.1"), .bind "h" (.started 1 []) ⟨none⟩,
          .advanceClock 1800001]
        (blank {} (.still 7) (fun n => (0, n.toUInt64)) .silent) ∧
      ∃ h, e.handles.lookup ("h" : Text) = some h ∧
        ((client (perform 0) "h" h).perform (.set "k" (.int 5)) e).1 = .ok () ∧
        ((client (perform 0) "h" h).perform (.set "k" (.int 5)) e).2.store.read (Id.ofWords (0, 1)) =
          some { Record.new (Id.ofWords (0, 1)) 1800008 (some "10.0.0.1") 1800000 with
            attributes := Attributes.empty.set "k" (.int 5) } := by
  let e := after 1 [.start (some "10.0.0.1"), .bind "h" (.started 1 []) ⟨none⟩,
      .advanceClock 1800001]
    (blank {} (.still 7) (fun n => (0, n.toUInt64)) .silent)
  let h : Handle := ⟨⟨none⟩, Id.ofWords (0, 0), 0, none, none⟩
  let r := Record.new (Id.ofWords (0, 0)) 7 (some "10.0.0.1") 1800000
  have hheld : e.handles.lookup ("h" : Text) = some h := by decide +kernel
  have hread : e.store.read h.id = some r := by decide +kernel
  have hcalm : e.disturbance = .calm := eq_calm (by decide +kernel)
  have hpassive : e.Passive := passive_of_isEmpty (by decide +kernel)
  have hcheck : e.admission.check (r.host <|> h.context.host) = .ok () := by decide +kernel
  have habsorbs := (handle_absorbs_replacements (perform 0) hheld (by decide) hread hcalm hpassive
    (by decide +kernel) hcheck (by decide +kernel)).2.1 (.set "k" (.int 5)) rfl
  obtain ⟨hresult, habsorbed⟩ :=
    habsorbs.replaced (by decide +kernel) (by decide +kernel) (by decide +kernel)
  have hfresh : e.fresh (r.host <|> h.context.host) =
      Record.new (Id.ofWords (0, 1)) 1800008 (some "10.0.0.1") 1800000 := by decide +kernel
  rw [hfresh] at hresult habsorbed
  exact ⟨e, rfl, h, hheld, hresult, habsorbed.read⟩

/-- A timer that cannot be switched on stands in the way of a handle for a valid session. -/
theorem handle_behind_refusing_timer :
    ∃ (e₀ e : Engine) (h : Handle) (r : Record),
      Engine.new {} (.still 7) (fun n => (0, n.toUInt64)) .silent = .ok e₀ ∧
      e = after 1 [.start none, .bind "h" (.started 1 []) ⟨none⟩,
        .setTimer (some "F") (.standIn .onFails)] e₀ ∧
      e.handles.lookup ("h" : Text) = some h ∧ e.store.read h.id = some r ∧
      e.disturbance = .calm ∧ e.Passive ∧ e.autoCreate = true ∧
      e.admission.check (r.host <|> h.context.host) = .ok () ∧ e.clock.Rests 4 ∧
      e.store.read e.draw.1 = none ∧ r.validity e.clock.now = .valid ∧
      ((client (perform 0) "h" h).perform .touch e).1 = .error (.foreign "no threads left") := by
  let e := after 1 [.start none, .bind "h" (.started 1 []) ⟨none⟩,
      .setTimer (some "F") (.standIn .onFails)]
    (blank {} (.still 7) (fun n => (0, n.toUInt64)) .silent)
  have hcalm : e.disturbance = .calm := eq_calm (by decide +kernel)
  have hpassive : e.Passive := passive_of_isEmpty (by decide +kernel)
  exact ⟨_, e, ⟨⟨none⟩, Id.ofWords (0, 0), 0, none, none⟩,
    Record.new (Id.ofWords (0, 0)) 7 none 1800000, rfl, rfl, by decide +kernel, by decide +kernel,
    hcalm, hpassive, by decide +kernel, by decide +kernel, by decide +kernel, by decide +kernel,
    by decide +kernel, by decide +kernel⟩

end Engine
end Sessions
