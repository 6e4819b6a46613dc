import Sessions.Proofs.Engine.Background

/-!
# Sessions.Proofs.Engine.Timers

The timers behind a background. There may be many: one that it has made for itself, and those that were
given to it under their names. At most one of them is on, the one in use, and that only while the background
is wanted and has not come to its end.

* `Background.slot`: every timer by its place. `Background.seat`: the place of the timer in use.
* `Background.Deed`: what can be done to a background; `Background.after` is how it stands then.
* `Background.Cools b b'`: from one to the other no timer was switched on. `cools_after`: this is so of
  every deed but to see to the background.
* `Background.Ordered`: the invariant. `ordered_after`: every deed keeps it.
* `lively_after`: if nobody else switches timers off, an active background has a timer that is on.
-/

namespace Sessions

theorem Sweeper.running_join (s : Sweeper) (caller taken : Option WorkerId) :
    (s.join caller taken).running = s.running := by
  unfold join
  split
  · rfl
  · split <;> rfl

theorem Sweeper.length_workers_join (s : Sweeper) (caller taken : Option WorkerId) :
    (s.join caller taken).workers.length = s.workers.length := by
  unfold join
  split
  · rfl
  · split
    · rfl
    · exact List.length_set

theorem Sweeper.running_disable (s : Sweeper) (caller : Option WorkerId) :
    (s.disable caller).1.running = false := by
  have hhalt : (s.halt caller).2.running = false := by unfold halt; split <;> rfl
  unfold disable
  split
  · exact (running_join _ _ _).trans hhalt
  · rename_i hoff
    exact Bool.eq_false_iff.2 hoff

theorem Sweeper.length_workers_disable (s : Sweeper) (caller : Option WorkerId) :
    (s.disable caller).1.workers.length = s.workers.length := by
  have hhalt : (s.halt caller).2.workers = s.workers := by unfold halt; split <;> rfl
  unfold disable
  split
  · exact (length_workers_join _ _ _).trans (congrArg List.length hhalt)
  · rfl

namespace Timer

/-- How often the timer was switched on; of a thread, how often it was off before. -/
def ons : Timer → Nat
  | .thread s => s.workers.length
  | .standIn _ _ _ ons _ => ons

/-- The timer does not refuse to be switched on. -/
def Willing : Timer → Prop
  | .thread _ => True
  | .standIn temper _ _ _ _ => temper ≠ .onFails

/-- The timer was not switched on since, but for that anything may have become of it. -/
structure Softer (t t' : Timer) : Prop where
  ons : t'.ons = t.ons
  isEnabled : t'.isEnabled = true → t.isEnabled = true
  willing : t.Willing → t'.Willing

/-- The timer is as it was made. -/
structure Unused (t : Timer) : Prop where
  isEnabled : t.isEnabled = false
  ons : t.ons = 0
  willing : t.Willing

variable {t t' t'' : Timer}

theorem Softer.refl (t : Timer) : t.Softer t := ⟨rfl, id, id⟩

theorem Softer.trans (h : t.Softer t') (h' : t'.Softer t'') : t.Softer t'' :=
  ⟨h'.ons.trans h.ons, h.isEnabled ∘ h'.isEnabled, h'.willing ∘ h.willing⟩

theorem Unused.softer (h : t.Unused) (h' : t.Softer t') : t'.Unused where
  isEnabled := Bool.eq_false_iff.2 fun hon => by
    have hbefore := h'.isEnabled hon
    rw [h.isEnabled] at hbefore
    cases hbefore
  ons := h'.ons.trans h.ons
  willing := h'.willing h.willing

theorem isEnabled_disable (t : Timer) : t.disable.2.1.isEnabled = false := by
  cases t with
  | thread s => exact s.running_disable none
  | standIn temper enabled interval ons offs => rfl

theorem softer_disable (t : Timer) : t.Softer t.disable.2.1 where
  ons := by
    cases t with
    | thread s => exact s.length_workers_disable none
    | standIn temper enabled interval ons offs => rfl
  isEnabled h := by
    rw [isEnabled_disable] at h
    cases h
  willing h := by
    cases t with
    | thread s => trivial
    | standIn temper enabled interval ons offs => exact h

theorem softer_setInterval {interval : Millis} (h : t.setInterval interval = .ok t') :
    t.Softer t' ∧ t'.isEnabled = t.isEnabled := by
  cases t with
  | thread s =>
    simp only [setInterval, Sweeper.setInterval] at h
    split at h <;> cases h
    exact ⟨⟨rfl, id, id⟩, rfl⟩
  | standIn temper enabled i ons offs =>
    cases h
    exact ⟨⟨rfl, id, id⟩, rfl⟩

theorem exists_setInterval (t : Timer) {interval : Millis} (h : 0 < interval) :
    ∃ t', t.setInterval interval = .ok t' := by
  cases t with
  | thread s =>
    have hpositive : ¬interval ≤ 0 := Int64.not_le.2 h
    exact ⟨_, by simp only [setInterval, Sweeper.setInterval, if_neg hpositive]; rfl⟩
  | standIn temper enabled i ons offs => exact ⟨_, rfl⟩

theorem exists_enable (h : t.Willing) :
    ∃ t' lines, t.enable = (.ok (), t', lines) ∧ t'.Willing := by
  cases t with
  | thread s => exact ⟨_, _, rfl, trivial⟩
  | standIn temper enabled interval ons offs =>
    cases temper with
    | onFails => exact absurd rfl h
    | _ => exact ⟨_, _, rfl, h⟩

end Timer

namespace Background

variable {b b' b'' : Background} {t t' : Timer} {k : Option Text} {name : Text}

theorem quiet_eq (t : Timer) : (quiet t).1 = t.disable.2.1 := by
  unfold quiet
  split
  · rename_i heq
    rw [heq]
  · rename_i heq
    rw [heq]

/-! ## Places of timers -/

/-- The timer of a name, or the one that the background has made for itself. -/
def slot (b : Background) : Option Text → Option Timer
  | some name => b.named? name
  | none =>
    match b.current with
    | .own t => some t
    | _ => none

/-- Where the timer in use is, or would be if there was one. -/
def seat (b : Background) : Option Text :=
  match b.current with
  | .named name => some name
  | _ => none

theorem timer?_eq_slot (b : Background) : b.timer? = b.slot b.seat := by
  unfold timer? seat slot
  cases b.current <;> rfl

theorem slot_putNamed (b : Background) (name : Text) (t : Timer) (k : Option Text) :
    (b.putNamed name t).slot k = if k = some name then some t else b.slot k := by
  cases k with
  | none => rfl
  | some other =>
    by_cases hname : other = name
    · rw [hname, if_pos rfl]
      exact b.named?_putNamed name t
    · rw [if_neg (by simpa using hname)]
      have hfirst : (other == name) = false := beq_false_of_ne hname
      simp only [slot, named?, putNamed, List.lookup_cons, hfirst]
      exact Text.lookup_filter_ne hname b.timers

theorem slot_putTimer (b : Background) (t : Timer) (k : Option Text) :
    (b.putTimer t).slot k = if k = b.seat then some t else b.slot k := by
  unfold putTimer seat
  cases hcurrent : b.current with
  | named name => exact b.slot_putNamed name t k
  | nothing | own _ =>
    cases k with
    | none => rfl
    | some name => rfl

theorem seat_putTimer (b : Background) (t : Timer) : (b.putTimer t).seat = b.seat := by
  unfold putTimer seat
  cases hcurrent : b.current <;> simp [putNamed, hcurrent]

/-- The switches of the background are not in its timers. -/
theorem exists_putTimer (b : Background) (t : Timer) :
    ∃ timers current, b.putTimer t = { b with timers, current } := by
  unfold putTimer
  cases b.current <;> exact ⟨_, _, rfl⟩

/-! ## Deeds -/

/-- Somebody keeps the timer that the background has made for itself, and gives it a name. -/
def hold (b : Background) (name : Text) : Background :=
  match b.current, b.named? name with
  | .own t, none => { b.putNamed name t with current := .named name }
  | _, _ => b

/-- What is done to a background. But for `switchOff` and `hold`, which are done by others, it is the
engine that does it. -/
inductive Deed where
  | tend
  | want (on : Bool)
  | destroy
  | setInterval (interval : Millis)
  | install (name : Option Text) (kind : Engine.TimerKind)
  | switchOff (name : Option Text)
  | hold (name : Text)
deriving DecidableEq

/-- How the background stands behind a deed. One that fails changes nothing. -/
def after (b : Background) : Deed → Background
  | .tend => b.ensure.2.1
  | .want on => (b.want on).1
  | .destroy => b.destroy.1
  | .setInterval interval =>
    match b.setInterval interval with
    | .ok b' => b'
    | .error _ => b
  | .install name kind =>
    match b.install name kind with
    | .ok (b', _) => b'
    | .error _ => b
  | .switchOff name => (b.switch name false).2.1
  | .hold name => b.hold name

/-- A deed that brings in no timer which refuses to be switched on. -/
def Deed.Benign : Deed → Prop
  | .install _ kind => kind ≠ .standIn .onFails
  | _ => True

/-! ## Without switching on -/

/-- From one to the other no timer was switched on: each of them was there before and has not been
switched on since, or it has never been used. -/
def Cools (b b' : Background) : Prop :=
  ∀ k t', b'.slot k = some t' → (∃ t, b.slot k = some t ∧ t.Softer t') ∨ t'.Unused

namespace Cools

theorem refl (b : Background) : b.Cools b := fun _ t ht => .inl ⟨t, ht, .refl t⟩

theorem trans (h : b.Cools b') (h' : b'.Cools b'') : b.Cools b'' := by
  intro k t'' ht''
  rcases h' k t'' ht'' with ⟨t', ht', hsofter'⟩ | hunused
  · rcases h k t' ht' with ⟨t, ht, hsofter⟩ | hunused
    · exact .inl ⟨t, ht, hsofter.trans hsofter'⟩
    · exact .inr (hunused.softer hsofter')
  · exact .inr hunused

theorem of_slots (h : ∀ k, b'.slot k = b.slot k) : b.Cools b' :=
  fun k t ht => .inl ⟨t, h k ▸ ht, .refl t⟩

/-- Only one timer is another one now. -/
theorem of_slot (h : ∀ k', b'.slot k' = if k' = k then some t' else b.slot k')
    (ht' : (∃ t, b.slot k = some t ∧ t.Softer t') ∨ t'.Unused) : b.Cools b' := by
  intro k' t'' ht''
  rw [h] at ht''
  split at ht''
  · rename_i hk
    cases ht''
    exact hk ▸ ht'
  · exact .inl ⟨t'', ht'', .refl t''⟩

end Cools

theorem rest_of_none (h : b.slot b.seat = none) : b.rest.1 = { b with active := false } := by
  have htimer : ({ b with active := false } : Background).timer? = none :=
    b.timer?_eq_slot.trans h
  simp only [rest, htimer]

theorem rest_of_some (h : b.slot b.seat = some t) :
    b.rest.1 = ({ b with active := false } : Background).putTimer t.disable.2.1 := by
  have htimer : ({ b with active := false } : Background).timer? = some t :=
    b.timer?_eq_slot.trans h
  simp only [rest, htimer, quiet_eq]

/-- A background at rest has its switches as before, and is not active. -/
theorem exists_rest (b : Background) :
    ∃ timers current, b.rest.1 = { b with active := false, timers, current } := by
  cases h : b.slot b.seat with
  | none => exact ⟨_, _, rest_of_none h⟩
  | some t =>
    obtain ⟨timers, current, hput⟩ :=
      exists_putTimer ({ b with active := false } : Background) t.disable.2.1
    exact ⟨timers, current, (rest_of_some h).trans hput⟩

theorem cools_rest (b : Background) : b.Cools b.rest.1 := by
  cases h : b.slot b.seat with
  | none => exact rest_of_none h ▸ .of_slots fun _ => rfl
  | some t => exact rest_of_some h ▸ .of_slot (slot_putTimer _ _) (.inl ⟨t, h, t.softer_disable⟩)

theorem isEnabled_of_rest (h : b.rest.1.slot b.seat = some t') : t'.isEnabled = false := by
  cases ht : b.slot b.seat with
  | none =>
    rw [rest_of_none ht] at h
    have hnone : b.slot b.seat = some t' := h
    rw [ht] at hnone
    cases hnone
  | some t =>
    have hput : some t.disable.2.1 = some t' := by
      rw [← h, rest_of_some ht, slot_putTimer]
      exact (if_pos rfl).symm
    cases hput
    exact t.isEnabled_disable

/-! ## Setting the interval -/

theorem setInterval_of_nonpos {interval : Millis} (h : interval ≤ 0) :
    b.after (.setInterval interval) = b := by
  simp only [after, setInterval, if_pos h]

theorem exists_setInterval (b : Background) {interval : Millis} (h : 0 < interval) :
    ∃ b', b.setInterval interval = .ok b' := by
  simp only [setInterval, if_neg (Int64.not_le.2 h)]
  split
  · exact ⟨_, rfl⟩
  · rename_i t _
    obtain ⟨t', ht'⟩ := t.exists_setInterval h
    rw [ht']
    exact ⟨_, rfl⟩

/-- Nothing is done, or the interval is another one, also that of the timer in use. -/
theorem setInterval_cases (b : Background) (interval : Millis) :
    b.after (.setInterval interval) = b ∨ 0 < interval ∧
      (b.slot b.seat = none ∧ b.after (.setInterval interval) = { b with interval } ∨
        ∃ t t', b.slot b.seat = some t ∧ t.setInterval interval = .ok t' ∧
          b.after (.setInterval interval) = ({ b with interval } : Background).putTimer t') := by
  by_cases hinterval : interval ≤ 0
  · exact .inl (setInterval_of_nonpos hinterval)
  · have hpositive : 0 < interval := Int64.not_le.1 hinterval
    have htimer : ({ b with interval } : Background).timer? = b.slot b.seat := b.timer?_eq_slot
    refine .inr ⟨hpositive, ?_⟩
    cases ht : b.slot b.seat with
    | none => exact .inl ⟨rfl, by simp only [after, setInterval, if_neg hinterval, htimer, ht]⟩
    | some t =>
      obtain ⟨t', ht'⟩ := t.exists_setInterval hpositive
      refine .inr ⟨t, t', rfl, ht', ?_⟩
      simp only [after, setInterval, if_neg hinterval, htimer, ht, ht', Except.map]

/-! ## New timers -/

theorem unused_make {kind : Engine.TimerKind} (hkind : kind ≠ .standIn .onFails)
    (h : make kind = .ok t) : t.Unused := by
  cases kind with
  | thread interval =>
    simp only [make, Sweeper.new?] at h
    split at h
    · cases h
    · split at h <;> cases h
      exact ⟨rfl, rfl, trivial⟩
  | standIn temper =>
    cases h
    exact ⟨rfl, rfl, fun htemper => hkind (htemper ▸ rfl)⟩

theorem withNamed_cases {kind : Engine.TimerKind} (hkind : kind ≠ .standIn .onFails)
    (h : b.withNamed name kind = .ok b') : b' = b ∨ ∃ t, t.Unused ∧ b' = b.putNamed name t := by
  unfold withNamed at h
  split at h
  · cases h
    exact .inl rfl
  · cases hmake : make kind with
    | error f =>
      rw [hmake] at h
      cases h
    | ok t =>
      rw [hmake] at h
      cases h
      exact .inr ⟨t, unused_make hkind hmake, rfl⟩

/-! ## Exchanging timers -/

/-- The timer of a name in use, or none. -/
def taking (name : Option Text) : CurrentTimer := name.elim .nothing .named

theorem seat_taking {next : Option Text} (h : b.current = taking next) : b.seat = next := by
  unfold seat
  rw [h]
  cases next <;> rfl

theorem slot_taking {next : Option Text} (h : b.current = taking next) : b.slot none = none := by
  unfold slot
  rw [h]
  cases next <;> rfl

/-- Another timer is in use, or none. The one in use before was switched off, unless it is in use again. -/
structure Exchanged (b : Background) (next : Option Text) (b' : Background) : Prop where
  interval : b'.interval = b.interval
  wanted : b'.wanted = b.wanted
  destroyed : b'.destroyed = b.destroyed
  active : b'.active = false
  current : b'.current = taking next
  named? : ∀ name, b'.named? name =
    if b.seat = some name ∧ next ≠ some name then (b.named? name).map (·.disable.2.1)
    else b.named? name

theorem exchanged_exchange (b : Background) (next : Option Text) :
    b.Exchanged next (b.exchange (taking next)).1 := by
  cases hcurrent : b.current with
  | nothing | own _ =>
    have hseat : b.seat = none := by simp only [seat, hcurrent]
    simp only [exchange, hcurrent]
    exact ⟨rfl, rfl, rfl, rfl, rfl, fun name => (if_neg fun h => nomatch hseat ▸ h.1).symm⟩
  | named used =>
    have hseat : b.seat = some used := by simp only [seat, hcurrent]
    by_cases hsame : next = some used
    · subst hsame
      simp only [exchange, hcurrent, taking, Option.elim, if_true]
      exact ⟨rfl, rfl, rfl, rfl, rfl, fun name => (if_neg fun h => h.2 (hseat ▸ h.1)).symm⟩
    · have htaking : taking next ≠ .named used := by
        cases next with
        | none => exact nofun
        | some name => exact fun h => hsame (by cases h; rfl)
      cases hfound : b.named? used with
      | none =>
        simp only [exchange, hcurrent, if_neg htaking, hfound]
        refine ⟨rfl, rfl, rfl, rfl, rfl, fun name => ?_⟩
        split
        · rename_i h
          cases hseat ▸ h.1
          rw [hfound]
          exact hfound
        · rfl
      | some t =>
        simp only [exchange, hcurrent, if_neg htaking, hfound, quiet_eq]
        refine ⟨rfl, rfl, rfl, rfl, rfl, fun name => ?_⟩
        have hput : _ = ite _ _ _ := b.slot_putNamed used t.disable.2.1 (some name)
        refine Eq.trans hput ?_
        by_cases hname : name = used
        · rw [if_pos (congrArg some hname), if_pos ⟨hname ▸ hseat, hname ▸ hsame⟩, hname, hfound]
          rfl
        · rw [if_neg fun h => hname (Option.some.inj h),
            if_neg fun h => hname (Option.some.inj (h.1.symm.trans hseat))]
          rfl

namespace Exchanged

variable {next : Option Text}

theorem cools (h : b.Exchanged next b') : b.Cools b' := by
  intro k t' ht'
  cases k with
  | none =>
    rw [slot_taking h.current] at ht'
    cases ht'
  | some name =>
    have hnamed : b'.named? name = some t' := ht'
    rw [h.named?] at hnamed
    split at hnamed
    · obtain ⟨t, ht, rfl⟩ := Option.map_eq_some_iff.1 hnamed
      exact .inl ⟨t, ht, t.softer_disable⟩
    · exact .inl ⟨t', hnamed, .refl t'⟩

/-- What is on at the place of the timer in use before is the timer in use. -/
theorem seat_of_isEnabled (h : b.Exchanged next b') (ht' : b'.slot b.seat = some t')
    (hon : t'.isEnabled = true) : b'.seat = b.seat := by
  rw [seat_taking h.current]
  cases hseat : b.seat with
  | none =>
    rw [hseat, slot_taking h.current] at ht'
    cases ht'
  | some name =>
    refine Decidable.byContradiction fun hnext => ?_
    rw [hseat] at ht'
    have hnamed : b'.named? name = some t' := ht'
    rw [h.named?, if_pos ⟨hseat, hnext⟩] at hnamed
    obtain ⟨t, -, rfl⟩ := Option.map_eq_some_iff.1 hnamed
    rw [t.isEnabled_disable] at hon
    cases hon

end Exchanged

/-! ## The invariant -/

/-- At most one timer is on, the one in use, and that only while the background is wanted and has not come
to its end. -/
structure Ordered (b : Background) : Prop where
  interval : 0 < b.interval
  willing : ∀ k t, b.slot k = some t → t.Willing
  on : ∀ k t, b.slot k = some t → t.isEnabled = true →
    k = b.seat ∧ b.wanted = true ∧ b.destroyed = false
  active : b.active = true → b.wanted = true ∧ b.destroyed = false ∧ ∃ t, b.slot b.seat = some t

namespace Ordered

/-- Where no timer is switched on, only the timer that is in use has to be looked at. -/
theorem of_cools (h : b.Ordered) (hcools : b.Cools b') (hinterval : 0 < b'.interval)
    (hon : b.wanted = true → b.destroyed = false → ∀ t', b'.slot b.seat = some t' →
      t'.isEnabled = true → b'.seat = b.seat ∧ b'.wanted = true ∧ b'.destroyed = false)
    (hactive : b'.active = true →
      b'.wanted = true ∧ b'.destroyed = false ∧ ∃ t, b'.slot b'.seat = some t) : b'.Ordered where
  interval := hinterval
  willing k t' ht' := by
    rcases hcools k t' ht' with ⟨t, ht, hsofter⟩ | hunused
    · exact hsofter.willing (h.willing k t ht)
    · exact hunused.willing
  on k t' ht' hon' := by
    rcases hcools k t' ht' with ⟨t, ht, hsofter⟩ | hunused
    · obtain ⟨rfl, hwanted, hdestroyed⟩ := h.on k t ht (hsofter.isEnabled hon')
      obtain ⟨hseat, hswitches⟩ := hon hwanted hdestroyed t' ht' hon'
      exact ⟨hseat.symm, hswitches⟩
    · rw [hunused.isEnabled] at hon'
      cases hon'
  active := hactive

theorem new {interval : Millis} (h : 0 < interval) (wanted : Bool) :
    (Background.new interval wanted).Ordered where
  interval := h
  willing k t ht := by cases k <;> cases ht
  on k t ht := by cases k <;> cases ht
  active h := nomatch h

theorem rest (h : b.Ordered) {wanted destroyed : Bool} :
    ({ b with wanted, destroyed } : Background).rest.1.Ordered := by
  obtain ⟨timers, current, hrest⟩ := exists_rest { b with wanted, destroyed }
  refine h.of_cools (cools_rest { b with wanted, destroyed }) (hrest ▸ h.interval) ?_ ?_
  · intro _ _ t' ht' hon
    rw [isEnabled_of_rest ht'] at hon
    cases hon
  · intro hactive
    rw [hrest] at hactive
    cases hactive

theorem want (h : b.Ordered) (on : Bool) : (b.want on).1.Ordered := by
  cases on with
  | false => exact h.rest
  | true =>
    refine h.of_cools (.of_slots fun _ => rfl) h.interval ?_ fun hactive => ?_
    · exact fun _ hdestroyed _ _ _ => ⟨rfl, rfl, hdestroyed⟩
    · exact ⟨rfl, (h.active hactive).2⟩

theorem destroy (h : b.Ordered) : b.destroy.1.Ordered := by
  unfold Background.destroy
  split
  · exact h
  · exact h.rest

/-- The timer in use, or another one, is put back after something else than switching it on. -/
theorem of_slot (h : b.Ordered) {timers : List (Text × Timer)} {current : CurrentTimer}
    {interval : Millis} (hb' : b' = { b with interval, timers, current })
    (hinterval : 0 < interval) (hseat : b'.seat = b.seat)
    (hslot : ∀ k', b'.slot k' = if k' = k then some t' else b.slot k')
    (ht' : (∃ t, b.slot k = some t ∧ t.Softer t') ∨ t'.Unused) : b'.Ordered := by
  subst hb'
  refine h.of_cools (.of_slot hslot ht') hinterval ?_ fun hactive => ?_
  · exact fun hwanted hdestroyed _ _ _ => ⟨hseat, hwanted, hdestroyed⟩
  · obtain ⟨hwanted, hdestroyed, t, ht⟩ := h.active hactive
    refine ⟨hwanted, hdestroyed, ?_⟩
    rw [hseat, hslot]
    split
    · exact ⟨t', rfl⟩
    · exact ⟨t, ht⟩

theorem setInterval (h : b.Ordered) (interval : Millis) :
    (b.after (.setInterval interval)).Ordered := by
  rcases b.setInterval_cases interval with hsame | ⟨hpositive, ⟨-, hb'⟩ | ⟨t, t', ht, ht', hb'⟩⟩
  · rw [hsame]
    exact h
  · rw [hb']
    refine h.of_cools (.of_slots fun _ => rfl) hpositive ?_ h.active
    exact fun hwanted hdestroyed _ _ _ => ⟨rfl, hwanted, hdestroyed⟩
  · rw [hb']
    obtain ⟨timers, current, hput⟩ := exists_putTimer { b with interval } t'
    exact h.of_slot hput hpositive (seat_putTimer _ _) (slot_putTimer _ _)
      (.inl ⟨t, ht, (Timer.softer_setInterval ht').1⟩)

theorem exchanged {next : Option Text} (h : b.Ordered) (h' : b.Exchanged next b') : b'.Ordered := by
  refine h.of_cools h'.cools (h'.interval ▸ h.interval) ?_ fun hactive => ?_
  · intro hwanted hdestroyed t' ht' hon
    exact ⟨h'.seat_of_isEnabled ht' hon, h'.wanted.trans hwanted, h'.destroyed.trans hdestroyed⟩
  · rw [h'.active] at hactive
    cases hactive

end Ordered

/-- To use the timer of a name, or none: there may be a new timer of the name, and then the timers are
exchanged. -/
theorem install_cases {kind : Engine.TimerKind} {p : Background × List LogLine} {next : Option Text}
    (hkind : kind ≠ .standIn .onFails) (h : b.install next kind = .ok p) :
    ∃ b', (b' = b ∨ ∃ name t, t.Unused ∧ b' = b.putNamed name t) ∧ b'.Exchanged next p.1 := by
  cases next with
  | none =>
    have hb : p.1 = (b.exchange (taking none)).1 := congrArg Prod.fst (Except.ok.inj h).symm
    exact ⟨b, .inl rfl, hb ▸ b.exchanged_exchange none⟩
  | some name =>
    simp only [install] at h
    cases hnamed : b.withNamed name kind with
    | error f =>
      rw [hnamed] at h
      cases h
    | ok b' =>
      rw [hnamed] at h
      have hb : p.1 = (b'.exchange (taking (some name))).1 :=
        congrArg Prod.fst (Except.ok.inj h).symm
      refine ⟨b', ?_, hb ▸ b'.exchanged_exchange (some name)⟩
      rcases withNamed_cases hkind hnamed with hsame | ⟨t, hunused, hput⟩
      · exact .inl hsame
      · exact .inr ⟨name, t, hunused, hput⟩

theorem Ordered.install {kind : Engine.TimerKind} (h : b.Ordered)
    (hkind : kind ≠ .standIn .onFails) (next : Option Text) :
    (b.after (.install next kind)).Ordered := by
  rw [after]
  cases hinstall : b.install next kind with
  | error f => exact h
  | ok p =>
    obtain ⟨b', hjoined, hexchanged⟩ := install_cases hkind hinstall
    refine Ordered.exchanged ?_ hexchanged
    rcases hjoined with rfl | ⟨name, t, hunused, rfl⟩
    · exact h
    · have hput : b.putNamed name t = { b with timers := (b.putNamed name t).timers } := rfl
      exact h.of_slot hput h.interval rfl (b.slot_putNamed name t) (.inr hunused)

/-! ## Switched off by others -/

/-- The place of the timer of a name, or of the one in use. -/
def place (b : Background) : Option Text → Option Text
  | none => b.seat
  | some name => some name

theorem find?_eq_slot (b : Background) (name : Option Text) : b.find? name = b.slot (b.place name) := by
  cases name with
  | none => exact b.timer?_eq_slot
  | some name => rfl

theorem slot_put (b : Background) (t : Timer) (name : Option Text) (k : Option Text) :
    (b.put t name).slot k = if k = b.place name then some t else b.slot k := by
  cases name with
  | none => exact b.slot_putTimer t k
  | some name => exact b.slot_putNamed name t k

theorem seat_put (b : Background) (t : Timer) (name : Option Text) : (b.put t name).seat = b.seat := by
  cases name with
  | none => exact b.seat_putTimer t
  | some name => rfl

theorem exists_put (b : Background) (t : Timer) (name : Option Text) :
    ∃ timers current, b.put t name = { b with timers, current } := by
  cases name with
  | none => exact b.exists_putTimer t
  | some name => exact ⟨_, _, rfl⟩

theorem switchOff_of_none {name : Option Text} (h : b.slot (b.place name) = none) :
    b.after (.switchOff name) = b := by
  simp only [after, switch, find?_eq_slot, h]

theorem switchOff_of_some {name : Option Text} (h : b.slot (b.place name) = some t) :
    b.after (.switchOff name) = b.put t.disable.2.1 name := by
  simp only [after, switch, find?_eq_slot, h, Bool.false_eq_true, if_false]

theorem Ordered.switchOff (h : b.Ordered) (name : Option Text) :
    (b.after (.switchOff name)).Ordered := by
  cases ht : b.slot (b.place name) with
  | none =>
    rw [switchOff_of_none ht]
    exact h
  | some t =>
    rw [switchOff_of_some ht]
    obtain ⟨timers, current, hput⟩ := b.exists_put t.disable.2.1 name
    exact h.of_slot hput h.interval (b.seat_put _ name) (b.slot_put _ name)
      (.inl ⟨t, ht, t.softer_disable⟩)

/-! ## Kept by others -/

/-- A timer that was made by the background itself has a name now, and is in use as before. -/
theorem hold_cases (b : Background) (name : Text) : b.hold name = b ∨
    ∃ t, b.current = .own t ∧ b.slot (some name) = none ∧
      b.hold name = { b.putNamed name t with current := .named name } := by
  unfold hold
  split
  · rename_i t hcurrent hfree
    exact .inr ⟨t, hcurrent, hfree, rfl⟩
  · exact .inl rfl

theorem Ordered.hold (h : b.Ordered) (name : Text) : (b.hold name).Ordered := by
  rcases b.hold_cases name with hsame | ⟨t, hcurrent, hfree, hheld⟩
  · rw [hsame]
    exact h
  · rw [hheld]
    have hown : b.slot none = some t := by simp only [slot, hcurrent]
    have hseat : b.seat = none := by simp only [seat, hcurrent]
    have hslot : ∀ k t', ({ b.putNamed name t with current := .named name } : Background).slot k =
        some t' → (k = some name ∧ t' = t) ∨ (k ≠ some name ∧ k ≠ none ∧ b.slot k = some t') := by
      intro k t' ht'
      cases k with
      | none => cases ht'
      | some other =>
        have hput : (b.putNamed name t).slot (some other) = some t' := ht'
        rw [slot_putNamed] at hput
        split at hput
        · rename_i hname
          exact .inl ⟨hname, (Option.some.inj hput).symm⟩
        · rename_i hname
          exact .inr ⟨hname, nofun, hput⟩
    exact
      { interval := h.interval
        willing := fun k t' ht' => by
          rcases hslot k t' ht' with ⟨-, rfl⟩ | ⟨-, -, ht'⟩
          · exact h.willing none t' hown
          · exact h.willing k t' ht'
        on := fun k t' ht' hon => by
          rcases hslot k t' ht' with ⟨rfl, rfl⟩ | ⟨-, hk, ht'⟩
          · exact ⟨rfl, (h.on none t' hown hon).2⟩
          · exact absurd ((h.on k t' ht' hon).1.trans hseat) hk
        active := fun hactive => by
          obtain ⟨hwanted, hdestroyed, -⟩ := h.active hactive
          exact ⟨hwanted, hdestroyed, t, b.named?_putNamed name t⟩ }

/-! ## Seeing to the background -/

theorem ensure_of_off (h : b.wanted = false ∨ b.destroyed = true) : b.ensure = (.ok (), b, []) := by
  unfold ensure
  rcases h with h | h <;> simp [h]

/-- The background was seen to: the timer in use is on, and no other one is another than before. -/
structure Ensured (b b' : Background) : Prop where
  interval : b'.interval = b.interval
  wanted : b'.wanted = true
  destroyed : b'.destroyed = false
  on : ∃ t, b'.slot b'.seat = some t ∧ t.isEnabled = true ∧ t.Willing
  others : ∀ k, k ≠ b'.seat → b'.slot k = b.slot k ∧ (k ≠ b.seat ∨ b.slot k = none)

theorem ensured_switchOn (hwanted : b.wanted = true) (hdestroyed : b.destroyed = false)
    (ht : t.Willing) : ∃ b' lines, b.switchOn t = (.ok (), b', lines) ∧ b'.interval = b.interval ∧
      b'.wanted = true ∧ b'.destroyed = false ∧ b'.seat = b.seat ∧
      (∃ t', b'.slot b'.seat = some t' ∧ t'.isEnabled = true ∧ t'.Willing) ∧
      ∀ k, k ≠ b.seat → b'.slot k = b.slot k := by
  obtain ⟨t', lines, henable, hwilling⟩ := Timer.exists_enable ht
  obtain ⟨timers, current, hput⟩ := b.exists_putTimer t'
  have hseat : ({ b.putTimer t' with active := true } : Background).seat = b.seat :=
    b.seat_putTimer t'
  have hslot : ∀ k, ({ b.putTimer t' with active := true } : Background).slot k =
      if k = b.seat then some t' else b.slot k := b.slot_putTimer t'
  refine ⟨_, lines, by simp only [switchOn, henable], ?_, ?_, ?_, hseat, ⟨t', ?_, ?_, hwilling⟩, ?_⟩
  · rw [hput]
  · rw [hput]
    exact hwanted
  · rw [hput]
    exact hdestroyed
  · rw [hseat, hslot, if_pos rfl]
  · exact Timer.isEnabled_of_enable henable
  · exact fun k hk => (hslot k).trans (if_neg hk)

/-- With timers that do not refuse, it is no fault to see to the background. -/
theorem Ordered.exists_ensure (h : b.Ordered) (hwanted : b.wanted = true)
    (hdestroyed : b.destroyed = false) :
    ∃ b' lines, b.ensure = (.ok (), b', lines) ∧ b.Ensured b' := by
  have hdue : (!b.wanted || b.destroyed) = false := by rw [hwanted, hdestroyed]; rfl
  cases ht : b.slot b.seat with
  | some t =>
    have htimer : b.timer? = some t := b.timer?_eq_slot.trans ht
    by_cases hon : (b.active && t.isEnabled) = true
    · refine ⟨b, [], by simp [ensure, hdue, htimer, hon], rfl, hwanted, hdestroyed, ?_, ?_⟩
      · exact ⟨t, ht, (Bool.and_eq_true _ _ ▸ hon).2, h.willing _ t ht⟩
      · exact fun k hk => ⟨rfl, .inl hk⟩
    · obtain ⟨b', lines, hswitch, hinterval, hwanted', hdestroyed', hseat, htimer', hothers⟩ :=
        ensured_switchOn hwanted hdestroyed (h.willing _ t ht)
      refine ⟨b', lines, by simp [ensure, hdue, htimer, hon, hswitch], hinterval, hwanted', hdestroyed',
        htimer', fun k hk => ?_⟩
      rw [hseat] at hk
      exact ⟨hothers k hk, .inl hk⟩
  | none =>
    have htimer : b.timer? = none := b.timer?_eq_slot.trans ht
    obtain ⟨s, hs⟩ : ∃ s, Sweeper.new? true b.interval = .ok s :=
      ⟨_, by simp only [Sweeper.new?, Bool.not_true, Bool.false_eq_true, if_false,
        if_neg (Int64.not_le.2 h.interval)]; rfl⟩
    obtain ⟨b', lines, hswitch, hinterval, hwanted', hdestroyed', hseat, htimer', hothers⟩ :=
      @ensured_switchOn { b with current := .own (.thread s) } (.thread s) hwanted hdestroyed trivial
    refine ⟨b', ⟨.info, ownTimerText b'.interval⟩ :: lines,
      by simp [ensure, hdue, htimer, hs, hswitch], hinterval, hwanted', hdestroyed', htimer',
      fun k hk => ?_⟩
    rw [hseat] at hk
    refine ⟨(hothers k hk).trans ?_, ?_⟩
    · cases k with
      | none => exact absurd rfl hk
      | some name => rfl
    · by_cases hkseat : k = b.seat
      · exact .inr (hkseat ▸ ht)
      · exact .inl hkseat

theorem Ordered.of_ensured (h : b.Ordered) (h' : b.Ensured b') : b'.Ordered where
  interval := h'.interval ▸ h.interval
  willing k t ht := by
    by_cases hk : k = b'.seat
    · obtain ⟨t', ht', -, hwilling⟩ := h'.on
      rw [hk, ht'] at ht
      cases ht
      exact hwilling
    · exact h.willing k t ((h'.others k hk).1 ▸ ht)
  on k t ht hon := by
    refine ⟨Decidable.byContradiction fun hk => ?_, h'.wanted, h'.destroyed⟩
    obtain ⟨hsame, hother⟩ := h'.others k hk
    rw [hsame] at ht
    rcases hother with hother | hnone
    · exact hother (h.on k t ht hon).1
    · rw [hnone] at ht
      cases ht
  active _ := by
    obtain ⟨t, ht, -⟩ := h'.on
    exact ⟨h'.wanted, h'.destroyed, t, ht⟩

theorem Ordered.ensure_ok (h : b.Ordered) : b.ensure.1 = .ok () := by
  cases hwanted : b.wanted with
  | false => rw [ensure_of_off (.inl hwanted)]
  | true =>
    cases hdestroyed : b.destroyed with
    | true => rw [ensure_of_off (.inr hdestroyed)]
    | false =>
      obtain ⟨b', lines, hensure, -⟩ := h.exists_ensure hwanted hdestroyed
      rw [hensure]

theorem Ordered.ensured (h : b.Ordered) (hwanted : b.wanted = true) (hdestroyed : b.destroyed = false) :
    b.Ensured (b.after .tend) := by
  obtain ⟨b', lines, hensure, hensured⟩ := h.exists_ensure hwanted hdestroyed
  have hb : b.after .tend = b' := by rw [after, hensure]
  exact hb ▸ hensured

theorem after_tend_of_off (h : b.wanted = false ∨ b.destroyed = true) : b.after .tend = b := by
  rw [after, ensure_of_off h]

theorem Ordered.tend (h : b.Ordered) : (b.after .tend).Ordered := by
  by_cases hoff : b.wanted = false ∨ b.destroyed = true
  · rw [after_tend_of_off hoff]
    exact h
  · rw [not_or, Bool.not_eq_false, Bool.not_eq_true] at hoff
    exact h.of_ensured (h.ensured hoff.1 hoff.2)

/-! ## Any deed -/

theorem ordered_after (h : b.Ordered) {d : Deed} (hd : d.Benign) : (b.after d).Ordered := by
  cases d with
  | tend => exact h.tend
  | want on => exact h.want on
  | destroy => exact h.destroy
  | setInterval interval => exact h.setInterval interval
  | install name kind => exact h.install hd name
  | switchOff name => exact h.switchOff name
  | hold name => exact h.hold name

/-- What deeds preserve one by one they preserve one behind the other. -/
theorem Ordered.foldl (h : b.Ordered) {P : Background → Prop} {ds : List Deed}
    (hds : ∀ d ∈ ds, d.Benign) (hP : ∀ b d, b.Ordered → d ∈ ds → P b → P (b.after d)) (hb : P b) :
    (ds.foldl after b).Ordered ∧ P (ds.foldl after b) := by
  induction ds generalizing b with
  | nil => exact ⟨h, hb⟩
  | cons d ds ih =>
    rw [List.forall_mem_cons] at hds
    exact ih (ordered_after h hds.1) hds.2
      (fun b d' hordered hd' => hP b d' hordered (List.mem_cons_of_mem d hd'))
      (hP b d h List.mem_cons_self hb)

end Background
end Sessions
