import Sessions.Handle

/-!
# Sessions.Proofs.Handle.Replacement

How a handle follows replacements, whatever its manager does. The manager is any function of a call
and of a state of its own, so it cannot use the handle while it answers; everything it is asked is
noted.

* `Replaces` says that the manager answers the calls of one operation with given replacements, each
  call being made for the session that the last one put in place. `exists_replaces`: every manager
  replaces some sessions in a row and then stops doing so, or goes on beyond any bound.
* `reissue_of_raises`: re-issuing goes through the replacements that are raised, one each.
* `perform_follows_replacements`: what is called, for whom, what the caller gets and where the handle is
  bound afterwards, for every operation.
-/

namespace Sessions

/-- The fault tells of a replacement. -/
def Fault.isReplacement : Fault → Bool
  | .replaced .. => true
  | _ => false

namespace Call

/-- What stands in for the answer of a replaced session, where the call is not made again. -/
def blank : (c : Call) → Option c.Result
  | .touch => some ()
  | .keys => some []
  | .get _ => some none
  | _ => none

/-- Writing the explicit "no value", which is passed on as a removal. -/
def isErasure : Call → Bool
  | .set _ .absent => true
  | _ => false

end Call

namespace Handle

/-- What a handle answers from memory. -/
def recalled (h : Handle) : (c : Call) → Option c.Result
  | .getStart => h.start
  | .getHost => h.host
  | _ => none

/-- The two handles are bound alike, whatever each of them remembers. -/
structure Alike (h h' : Handle) : Prop where
  context : h'.context = h.context
  id : h'.id = h.id
  replacements : h'.replacements = h.replacements

theorem Alike.refl (h : Handle) : h.Alike h := ⟨rfl, rfl, rfl⟩

theorem alike_rememberStart (h : Handle) (id : Id) (t : Timestamp) :
    h.Alike (h.rememberStart id t) := by
  unfold rememberStart
  split <;> exact ⟨rfl, rfl, rfl⟩

theorem alike_rememberHost (h : Handle) (id : Id) (host : Option Text) :
    h.Alike (h.rememberHost id host) := by
  unfold rememberHost
  split <;> exact ⟨rfl, rfl, rfl⟩

end Handle

/-! ## Re-issuing -/

namespace Client

variable {σ : Type} {k : Client σ} {c : Call} {s s' s₁ s₂ : σ}

/-- The calls of an operation are answered with these replacements in a row. -/
inductive Raises (k : Client σ) (c : Call) : σ → List Id → σ → Prop where
  | nil (s : σ) : Raises k c s [] s
  | cons {s s₁ s₂ : σ} {old new : Id} {cause : Code} {rs : List Id} :
      k.callBound c s = (.error (.replaced old new cause), s₁) →
      Raises k c (k.follow old new s₁) rs s₂ → Raises k c s (new :: rs) s₂

theorem reissue_ok {n : Nat} {a : c.Result} (h : k.callBound c s = (.ok a, s')) :
    k.reissue c n s = (.ok ((k.handle s).id, a), s') := by
  unfold reissue
  rw [h]

theorem reissue_error {n : Nat} {f : Fault} (h : k.callBound c s = (.error f, s'))
    (hf : f.isReplacement = false) : k.reissue c n s = (.error f, s') := by
  unfold reissue
  rw [h]
  cases f with
  | replaced old new cause => simp [Fault.isReplacement] at hf
  | _ => rfl

theorem reissue_zero {old new : Id} {cause : Code}
    (h : k.callBound c s = (.error (.replaced old new cause), s')) :
    k.reissue c 0 s = (.error (.replaced old new cause), k.follow old new s') := by
  unfold reissue
  rw [h]

theorem reissue_succ {n : Nat} {old new : Id} {cause : Code}
    (h : k.callBound c s = (.error (.replaced old new cause), s')) :
    k.reissue c (n + 1) s = k.reissue c n (k.follow old new s') := by
  rw [reissue, h]

theorem reissue_of_raises {rs : List Id} (h : k.Raises c s rs s') :
    ∀ n, k.reissue c (rs.length + n) s = k.reissue c n s' := by
  induction h with
  | nil s => intro n; rw [List.length_nil, Nat.zero_add]
  | cons hcall _ ih =>
    intro n
    rw [List.length_cons, Nat.add_right_comm, reissue_succ hcall]
    exact ih n

theorem persist_of_reissue {r : Except Fault (Id × c.Result)}
    (h : k.reissue c Handle.patience s = (r, s')) : k.persist c s = (r.map (·.2), s') := by
  rw [persist, h]

theorem absorb_of_replaced {b : c.Result} {old new : Id} {cause : Code}
    (h : k.callBound c s = (.error (.replaced old new cause), s')) :
    k.absorb c b s = (.ok b, k.follow old new s') := by
  rw [absorb, h]

theorem absorb_of_call {b : c.Result} {r : Except Fault c.Result} (h : k.callBound c s = (r, s'))
    (hr : ∀ f, r = .error f → f.isReplacement = false) : k.absorb c b s = (r, s') := by
  rw [absorb, h]
  split
  · rename_i heq
    cases heq
    have := hr _ rfl
    simp [Fault.isReplacement] at this
  · rfl

/-! ## Operations -/

theorem perform_of_recalled {a : c.Result} (h : (k.handle s).recalled c = some a) :
    k.perform c s = (.ok a, s) := by
  cases c with
  | getStart =>
    replace h : (k.handle s).start = some a := h
    rw [perform, getStart, h]
  | getHost =>
    replace h : (k.handle s).host = some a := h
    rw [perform, getHost, h]
  | _ => simp [Handle.recalled] at h

theorem perform_of_blank {b : c.Result} (h : c.blank = some b) : k.perform c = k.absorb c b := by
  cases c with
  | touch => rfl
  | keys =>
    cases h
    rfl
  | get key =>
    cases h
    rfl
  | _ => simp [Call.blank] at h

/-- An operation that is re-issued answers what its last call answered. It may remember the answer,
which changes neither the binding nor the count. -/
theorem perform_of_reissue {r : Except Fault (Id × c.Result)} (hblank : c.blank = none)
    (herase : c.isErasure = false) (hnew : (k.handle s).recalled c = none)
    (h : k.reissue c Handle.patience s = (r, s')) :
    k.perform c s = (r.map (·.2), s') ∨
      ∃ h', (k.handle s').Alike h' ∧ k.perform c s = (r.map (·.2), k.setHandle h' s') := by
  have hpersist := persist_of_reissue h
  cases c with
  | getStart =>
    replace hnew : (k.handle s).start = none := hnew
    simp only [perform, getStart, hnew, h]
    cases r with
    | error f => exact .inl rfl
    | ok a => exact .inr ⟨_, Handle.alike_rememberStart _ _ _, rfl⟩
  | getHost =>
    replace hnew : (k.handle s).host = none := hnew
    simp only [perform, getHost, hnew, h]
    cases r with
    | error f => exact .inl rfl
    | ok a => exact .inr ⟨_, Handle.alike_rememberHost _ _ _, rfl⟩
  | touch => simp [Call.blank] at hblank
  | keys => simp [Call.blank] at hblank
  | get key => simp [Call.blank] at hblank
  | set key value =>
    cases value with
    | absent => simp [Call.isErasure] at herase
    | _ => exact .inl hpersist
  | _ => exact .inl hpersist

/-- The call is answered by anything but a replacement, and so is the operation. -/
theorem perform_of_call {r : Except Fault c.Result} (herase : c.isErasure = false)
    (hnew : (k.handle s).recalled c = none) (h : k.callBound c s = (r, s'))
    (hr : ∀ f, r = .error f → f.isReplacement = false) :
    k.perform c s = (r, s') ∨
      ∃ h', (k.handle s').Alike h' ∧ k.perform c s = (r, k.setHandle h' s') := by
  cases hblank : c.blank with
  | some b =>
    rw [perform_of_blank hblank]
    exact .inl (absorb_of_call h hr)
  | none =>
    cases r with
    | ok a => exact perform_of_reissue hblank herase hnew (reissue_ok h)
    | error f => exact perform_of_reissue hblank herase hnew (reissue_error h (hr f rfl))

/-- The call is answered by a replacement, and the next one by anything else. -/
theorem perform_of_replaced {r : Except Fault c.Result} {old new : Id} {cause : Code}
    (hblank : c.blank = none) (herase : c.isErasure = false)
    (hnew : (k.handle s).recalled c = none)
    (h : k.callBound c s = (.error (.replaced old new cause), s₁))
    (hagain : k.callBound c (k.follow old new s₁) = (r, s'))
    (hr : ∀ f, r = .error f → f.isReplacement = false) :
    k.perform c s = (r, s') ∨
      ∃ h', (k.handle s').Alike h' ∧ k.perform c s = (r, k.setHandle h' s') := by
  have hfirst : k.reissue c Handle.patience s = k.reissue c 2 (k.follow old new s₁) := reissue_succ h
  cases r with
  | ok a => exact perform_of_reissue hblank herase hnew (hfirst.trans (reissue_ok hagain))
  | error f =>
    exact perform_of_reissue hblank herase hnew (hfirst.trans (reissue_error hagain (hr f rfl)))

theorem perform_erasure (key : Text) (s : σ) :
    k.perform (.set key .absent) s =
      ((k.perform (.remove key) s).1.map fun _ => (), (k.perform (.remove key) s).2) := rfl

end Client

/-! ## Talking to any manager -/

/-- A manager that does not know the handle: it answers from a state of its own. -/
abbrev Party (μ : Type) := (c : Call) → Id → Context → μ → Except Fault c.Result × μ

/-- A handle that talks to such a manager, and the calls that were made. -/
structure Dialogue (μ : Type) where
  handle : Handle
  manager : μ
  calls : List (Call × Id × Context)
  log : Log

/-- Called for an id and then for each replacement in turn, the manager replaces the session by
these ids. -/
inductive Replaces {μ : Type} (answer : Party μ) (c : Call) (ctx : Context) :
    Id → μ → List Id → Id → μ → Prop where
  | nil (id : Id) (m : μ) : Replaces answer c ctx id m [] id m
  | cons {id old new last : Id} {m m₁ m₂ : μ} {cause : Code} {rs : List Id} :
      answer c id ctx m = (.error (.replaced old new cause), m₁) →
      Replaces answer c ctx new m₁ rs last m₂ → Replaces answer c ctx id m (new :: rs) last m₂

namespace Dialogue

variable {μ : Type} {answer : Party μ} {c : Call}

/-- How a dialogue looks to its handle. -/
def client (answer : Party μ) : Client (Dialogue μ) where
  handle := Dialogue.handle
  setHandle h d := { d with handle := h }
  call c id ctx d :=
    let (r, m) := answer c id ctx d.manager
    (r, { d with manager := m, calls := d.calls ++ [(c, id, ctx)] })
  note level message d := { d with log := d.log.write level message }

/-- An operation through the handle ends with a result, having called for the sessions `ids` and
having been rebound to `rs`; it leaves the manager in the state `m`. -/
structure Ends (answer : Party μ) (c : Call) (d : Dialogue μ) (r : Except Fault c.Result)
    (ids rs : List Id) (m : μ) : Prop where
  result : ((client answer).perform c d).1 = r
  calls : ((client answer).perform c d).2.calls =
    d.calls ++ ids.map fun i => (c, i, d.handle.context)
  bound : ((client answer).perform c d).2.handle.id = rs.getLastD d.handle.id
  count : ((client answer).perform c d).2.handle.replacements =
    d.handle.replacements + rs.length
  manager : ((client answer).perform c d).2.manager = m

/-- A dialogue that was led through replacements up to a last one. The call for that one is still to
be made, so it is added here to those that were noted. -/
structure Led (c : Call) (d d' : Dialogue μ) (rs : List Id) (last : Id) (m : μ) : Prop where
  calls : d'.calls ++ [(c, last, d.handle.context)] =
    d.calls ++ (d.handle.id :: rs).map fun i => (c, i, d.handle.context)
  context : d'.handle.context = d.handle.context
  bound : d'.handle.id = last
  count : d'.handle.replacements = d.handle.replacements + rs.length
  manager : d'.manager = m

theorem callBound_eq {d : Dialogue μ} {r : Except Fault c.Result} {m : μ}
    (h : answer c d.handle.id d.handle.context d.manager = (r, m)) :
    (client answer).callBound c d =
      (r, { d with manager := m, calls := d.calls ++ [(c, d.handle.id, d.handle.context)] }) := by
  simp only [Client.callBound, client, h]

/-- What the manager raises, the handle follows: it calls for each session in turn. -/
theorem raises_of_replaces {ctx : Context} {id last : Id} {m m' : μ} {rs : List Id}
    (h : Replaces answer c ctx id m rs last m') :
    ∀ d : Dialogue μ, d.handle.context = ctx → d.handle.id = id → d.manager = m →
      ∃ d', (client answer).Raises c d rs d' ∧ Led c d d' rs last m' := by
  induction h with
  | nil id m =>
    intro d _ hid hm
    exact ⟨d, .nil d, by rw [hid]; rfl, rfl, hid, rfl, hm⟩
  | @cons id old new last m m₁ m₂ cause rs hcall _ ih =>
    intro d hctx hid hm
    subst hctx hid hm
    let d₁ := (client answer).follow old new
      { d with manager := m₁, calls := d.calls ++ [(c, d.handle.id, d.handle.context)] }
    obtain ⟨d', hraises, hled⟩ := ih d₁ rfl rfl rfl
    have hcount : d₁.handle.replacements = d.handle.replacements + 1 := rfl
    have hcalls : d₁.calls = d.calls ++ [(c, d.handle.id, d.handle.context)] := rfl
    refine ⟨d', .cons (callBound_eq hcall) hraises, ?_, hled.context, hled.bound, ?_, hled.manager⟩
    · have := hled.calls
      rw [hcalls, List.append_assoc] at this
      exact this
    · rw [hled.count, hcount, List.length_cons]
      omega

theorem getLastD_of_replaces {ctx : Context} {id last : Id} {m m' : μ} {rs : List Id}
    (h : Replaces answer c ctx id m rs last m') : rs.getLastD id = last := by
  induction h with
  | nil id m => rfl
  | @cons id old new last m m₁ m₂ cause rs _ _ ih =>
    rw [← ih]
    cases rs <;> rfl

/-- Remembering an answer concerns neither the manager nor what it was asked. -/
theorem perform_of_reissue {d d' : Dialogue μ} {r : Except Fault (Id × c.Result)}
    (hblank : c.blank = none) (herase : c.isErasure = false) (hnew : d.handle.recalled c = none)
    (h : (client answer).reissue c Handle.patience d = (r, d')) :
    ((client answer).perform c d).1 = r.map (·.2) ∧
      Handle.Alike d'.handle ((client answer).perform c d).2.handle ∧
      ((client answer).perform c d).2.calls = d'.calls ∧
      ((client answer).perform c d).2.manager = d'.manager := by
  rcases Client.perform_of_reissue hblank herase hnew h with hp | ⟨h', halike, hp⟩
  · rw [hp]
    exact ⟨rfl, .refl _, rfl, rfl⟩
  · rw [hp]
    exact ⟨rfl, halike, rfl, rfl⟩

/-! ## The operations -/

variable {d : Dialogue μ} {rs : List Id} {last : Id} {m m' : μ}

/-- At most three replacements in a row are followed to the answer behind them. -/
theorem ends_of_followed {r : Except Fault c.Result}
    (hblank : c.blank = none) (herase : c.isErasure = false) (hnew : d.handle.recalled c = none)
    (hrs : Replaces answer c d.handle.context d.handle.id d.manager rs last m)
    (hlen : rs.length ≤ Handle.patience) (hr : answer c last d.handle.context m = (r, m'))
    (hend : ∀ f, r = .error f → f.isReplacement = false) :
    Ends answer c d r (d.handle.id :: rs) rs m' := by
  obtain ⟨d', hraises, hled⟩ := raises_of_replaces hrs d rfl rfl rfl
  obtain ⟨n, hn⟩ := Nat.exists_eq_add_of_le hlen
  have hcall := callBound_eq (d := d') (by rw [hled.bound, hled.context, hled.manager]; exact hr)
  have hsteps := Client.reissue_of_raises hraises n
  rw [← hn] at hsteps
  have hlast : (client answer).reissue c n d' = (r.map fun a => (d'.handle.id, a),
      { d' with manager := m', calls := d'.calls ++ [(c, d'.handle.id, d'.handle.context)] }) := by
    cases r with
    | ok a => exact Client.reissue_ok hcall
    | error f => exact Client.reissue_error hcall (hend f rfl)
  obtain ⟨hresult, halike, hcalls, hmanager⟩ :=
    perform_of_reissue hblank herase hnew (hsteps.trans hlast)
  refine ⟨?_, ?_, ?_, ?_, hmanager⟩
  · rw [hresult]
    cases r <;> rfl
  · rw [hcalls, hled.bound, hled.context]
    exact hled.calls
  · rw [halike.id, getLastD_of_replaces hrs]
    exact hled.bound
  · rw [halike.replacements]
    exact hled.count

/-- The fourth replacement in a row is still followed, but the caller is told of it. -/
theorem ends_of_exhausted {old new : Id} {cause : Code}
    (hblank : c.blank = none) (herase : c.isErasure = false) (hnew : d.handle.recalled c = none)
    (hrs : Replaces answer c d.handle.context d.handle.id d.manager rs last m)
    (hlen : rs.length = Handle.patience)
    (hr : answer c last d.handle.context m = (.error (.replaced old new cause), m')) :
    Ends answer c d (.error (.replaced old new cause)) (d.handle.id :: rs) (rs ++ [new]) m' := by
  obtain ⟨d', hraises, hled⟩ := raises_of_replaces hrs d rfl rfl rfl
  have hcall := callBound_eq (d := d') (by rw [hled.bound, hled.context, hled.manager]; exact hr)
  have hsteps := Client.reissue_of_raises hraises 0
  rw [Nat.add_zero, hlen] at hsteps
  obtain ⟨hresult, halike, hcalls, hmanager⟩ :=
    perform_of_reissue hblank herase hnew (hsteps.trans (Client.reissue_zero hcall))
  refine ⟨hresult, ?_, ?_, ?_, hmanager⟩
  · rw [hcalls]
    change d'.calls ++ [(c, d'.handle.id, d'.handle.context)] = _
    rw [hled.bound, hled.context]
    exact hled.calls
  · rw [halike.id, List.getLastD_concat]
    rfl
  · rw [halike.replacements, List.length_append]
    change d'.handle.replacements + 1 = _
    rw [hled.count]
    rfl

/-- An operation with a stand-in answer calls once, whatever comes back. -/
theorem ends_of_absorbed {r : Except Fault c.Result} {b : c.Result} (hblank : c.blank = some b)
    (hr : answer c d.handle.id d.handle.context d.manager = (r, m')) :
    (∀ old new cause, r = .error (.replaced old new cause) →
      Ends answer c d (.ok b) [d.handle.id] [new] m') ∧
    ((∀ f, r = .error f → f.isReplacement = false) → Ends answer c d r [d.handle.id] [] m') := by
  have hcall := callBound_eq hr
  have habsorb : (client answer).perform c = (client answer).absorb c b := Client.perform_of_blank hblank
  constructor
  · rintro old new cause rfl
    have hp := Client.absorb_of_replaced (b := b) hcall
    rw [← habsorb] at hp
    exact ⟨by rw [hp], by rw [hp]; rfl, by rw [hp]; rfl, by rw [hp]; rfl, by rw [hp]; rfl⟩
  · intro hend
    have hp := Client.absorb_of_call (b := b) hcall hend
    rw [← habsorb] at hp
    exact ⟨by rw [hp], by rw [hp]; rfl, by rw [hp]; rfl, by rw [hp]; rfl, by rw [hp]⟩

theorem ends_of_recalled {a : c.Result} (h : d.handle.recalled c = some a) :
    Ends answer c d (.ok a) [] [] d.manager := by
  have hp : (client answer).perform c d = (.ok a, d) := Client.perform_of_recalled h
  exact ⟨by rw [hp], by rw [hp]; simp, by rw [hp]; rfl, by rw [hp]; rfl, by rw [hp]⟩

/-- Every manager replaces some sessions in a row, at most as many as a handle has patience for, and
then either answers otherwise or that bound is reached. -/
theorem exists_replaces (answer : Party μ) (c : Call) (ctx : Context) :
    ∀ (n : Nat) (id : Id) (m : μ), ∃ rs last m', Replaces answer c ctx id m rs last m' ∧
      rs.length ≤ n ∧
      (rs.length = n ∨ ∀ f, (answer c last ctx m').1 = .error f → f.isReplacement = false) := by
  intro n
  induction n with
  | zero => intro id m; exact ⟨[], id, m, .nil id m, Nat.le_refl 0, Or.inl rfl⟩
  | succ n ih =>
    intro id m
    by_cases hmore : ∃ old new cause, (answer c id ctx m).1 = .error (.replaced old new cause)
    · obtain ⟨old, new, cause, hcall⟩ := hmore
      obtain ⟨rs, last, m', hrs, hlen, hor⟩ := ih new (answer c id ctx m).2
      refine ⟨new :: rs, last, m', .cons (Prod.ext hcall rfl) hrs, Nat.succ_le_succ hlen, ?_⟩
      exact hor.imp_left (congrArg Nat.succ)
    · refine ⟨[], id, m, .nil id m, Nat.zero_le _, Or.inr fun f hf => ?_⟩
      cases f with
      | replaced old new cause => exact absurd ⟨old, new, cause, hf⟩ hmore
      | _ => rfl

/-- What the probe of a handle makes of the result of a check. -/
def verdict : Except Fault Unit → Except Fault Bool
  | .ok _ => .ok true
  | .error f => if f.isInvalidSession then .ok false else .error f

theorem isValid_eq (answer : Party μ) (d : Dialogue μ) :
    ∃ log, (client answer).isValid d = (verdict ((client answer).perform .checkValid d).1,
      { ((client answer).perform .checkValid d).2 with log }) := by
  unfold Client.isValid
  split
  · rename_i d' h
    exact ⟨d'.log, by rw [h]; rfl⟩
  · rename_i f d' h
    rw [h]
    by_cases hf : f.isInvalidSession
    · refine ⟨d'.log.write .trace
        ("Session handle " ++ d'.handle.id ++ " is not valid: " ++ f.message), ?_⟩
      simp only [hf, if_true, verdict]
      rfl
    · exact ⟨d'.log, by simp [hf, verdict]⟩

/-- **Replacements are followed.** What the handle remembers is answered without a call. An operation
that is re-issued calls for the bound session and then for each replacement in turn: up to three
in a row lead to the answer, or to the other fault, behind them; a fourth one is followed too, and
is what the caller is told. An operation with a stand-in answer calls once, and answers the stand-in
if the session was replaced. Writing "no value" is a removal, and the probe is a check. -/
theorem perform_follows_replacements {μ : Type} (answer : Party μ) (d : Dialogue μ) :
    (∀ c a, d.handle.recalled c = some a → Ends answer c d (.ok a) [] [] d.manager) ∧
    (∀ c : Call, c.blank = none → c.isErasure = false → d.handle.recalled c = none →
      (∃ rs last m, Replaces answer c d.handle.context d.handle.id d.manager rs last m ∧
        rs.length ≤ 3 ∧ (rs.length = 3 ∨ ∀ f, (answer c last d.handle.context m).1 = .error f →
          f.isReplacement = false)) ∧
      ∀ rs last m r m', Replaces answer c d.handle.context d.handle.id d.manager rs last m →
        answer c last d.handle.context m = (r, m') →
        (rs.length ≤ 3 → (∀ f, r = .error f → f.isReplacement = false) →
          Ends answer c d r (d.handle.id :: rs) rs m') ∧
        (rs.length = 3 → ∀ old new cause, r = .error (.replaced old new cause) →
          Ends answer c d r (d.handle.id :: rs) (rs ++ [new]) m')) ∧
    (∀ c b r m', c.blank = some b →
      answer c d.handle.id d.handle.context d.manager = (r, m') →
        (∀ old new cause, r = .error (.replaced old new cause) →
          Ends answer c d (.ok b) [d.handle.id] [new] m') ∧
        ((∀ f, r = .error f → f.isReplacement = false) → Ends answer c d r [d.handle.id] [] m')) ∧
    (∀ key, (client answer).perform (.set key .absent) d =
      (((client answer).perform (.remove key) d).1.map fun _ => (),
        ((client answer).perform (.remove key) d).2)) ∧
    ∃ log, (client answer).isValid d = (verdict ((client answer).perform .checkValid d).1,
      { ((client answer).perform .checkValid d).2 with log }) := by
  refine ⟨fun c a h => ends_of_recalled h, fun c hblank herase hnew => ?_,
    fun c b r m' hblank hr => ends_of_absorbed hblank hr, fun key => rfl, isValid_eq answer d⟩
  refine ⟨exists_replaces answer c d.handle.context 3 d.handle.id d.manager, ?_⟩
  intro rs last m r m' hrs hr
  refine ⟨fun hlen hend => ends_of_followed hblank herase hnew hrs hlen hr hend, ?_⟩
  rintro hlen old new cause rfl
  exact ends_of_exhausted hblank herase hnew hrs hlen hr

/-- A manager that replaces sessions by the ids of a list, one per call, and then knows none. -/
def replacing : Party (List Id) := fun _ id _ queue =>
  match queue with
  | [] => (.error (.unknown id), [])
  | new :: rest => (.error (.replaced id new .expiredSession), rest)

/-- Four replacements in a row, met by a stop. -/
theorem stop_follows_four_replacements :
    Ends replacing .stop ⟨⟨⟨none⟩, [1], 0, none, none⟩, [[2], [3], [4], [5]], [], .new .silent⟩
      (.error (.replaced [4] [5] .expiredSession)) [[1], [2], [3], [4]] [[2], [3], [4], [5]] [] :=
  ((perform_follows_replacements replacing _).2.1 .stop rfl rfl rfl).2 [[2], [3], [4]] [4] [[5]] _ _
    (.cons rfl (.cons rfl (.cons rfl (.nil _ _)))) rfl |>.2 rfl [4] [5] .expiredSession rfl

end Dialogue
end Sessions
