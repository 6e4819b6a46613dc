import Sessions.Handle
import Sessions.Program
import Sessions.Registry

/-!
# Sessions.Proofs.Engine.View

Programs, announcements and handles over a state of which something is left out. Where a view of the state
goes with every single thing that is asked of it, it goes with whatever is made of them: what is left out
has no part in how they run.

* `Program.view_run`: programs.
* `Stage.View.announce`: announcements.
* `Client.View.perform`, `Client.View.isValid`: operations through a handle.
-/

namespace Sessions

variable {σ τ : Type} {view : σ → τ}

theorem Program.view_run {Q α : Type} {A : Q → Type} {answer : (q : Q) → σ → A q × σ}
    {answer' : (q : Q) → τ → A q × τ}
    (h : ∀ q s, Prod.map id view (answer q s) = answer' q (view s)) (p : Program Q A α) (s : σ) :
    Prod.map id view (p.run answer s) = p.run answer' (view s) := by
  induction p generalizing s with
  | done r => rfl
  | ask q next ih =>
    rw [Program.run, Program.run, ← h q s]
    exact ih _ _

/-! ## Announcements -/

namespace Stage

variable {A R : Type} {st : Stage σ A R} {st' : Stage τ A R}

/-- The second stage is the first one, seen through a view of its state. -/
structure View (view : σ → τ) (st : Stage σ A R) (st' : Stage τ A R) : Prop where
  registry : ∀ s, st'.registry (view s) = st.registry s
  setRegistry : ∀ g s, view (st.setRegistry g s) = st'.setRegistry g (view s)
  note : ∀ level message s, view (st.note level message s) = st'.note level message (view s)
  act : ∀ r a s, Prod.map id view (st.act r a s) = st'.act r a (view s)

namespace View

theorem update (h : View view st st') (f : Registry A R → Registry A R) (s : σ) :
    view (st.update f s) = st'.update f (view s) := by
  rw [Stage.update, Stage.update, h.setRegistry, h.registry]

theorem actAll (h : View view st st') (r : Record) (delivery : Nat) (as : List A) (s : σ) :
    view (st.actAll r delivery as s) = st'.actAll r delivery as (view s) := by
  induction as generalizing s with
  | nil => rfl
  | cons a as ih =>
    rw [Stage.actAll, Stage.actAll, ← h.act, ih, h.update]
    rfl

theorem tell (h : View view st st') (ev : Event) (r : Record) (i : ListenerId) (s : σ) :
    view (st.tell ev r i s) = st'.tell ev r i (view s) := by
  unfold Stage.tell
  rw [h.registry]
  cases (st.registry s).ears[i]? with
  | none => rfl
  | some ear =>
    by_cases hhears : ear.listener.hears ev
    · simp only [if_pos hhears]
      cases (ear.listener.react ev (ear.told ev)).failure with
      | none => simp only [h.actAll, h.update]
      | some words => simp only [h.note, h.actAll, h.update]
    · simp only [if_neg hhears]

theorem announce (h : View view st st') (ev : Event) (r : Record) (s : σ) :
    view (st.announce ev r s) = st'.announce ev r (view s) := by
  have htellAll : ∀ (is : List ListenerId) (s : σ),
      view (st.tellAll ev r is s) = st'.tellAll ev r is (view s) := by
    intro is
    induction is with
    | nil => exact fun s => rfl
    | cons i is ih =>
      intro s
      rw [Stage.tellAll, Stage.tellAll, ih, h.tell]
  rw [Stage.announce, Stage.announce, htellAll, h.registry]

end View
end Stage

/-! ## Handles -/

namespace Client

variable {k : Client σ} {k' : Client τ}

/-- The second client is the first one, seen through a view of its state. -/
structure View (view : σ → τ) (k : Client σ) (k' : Client τ) : Prop where
  handle : ∀ s, k'.handle (view s) = k.handle s
  setHandle : ∀ h s, view (k.setHandle h s) = k'.setHandle h (view s)
  note : ∀ level message s, view (k.note level message s) = k'.note level message (view s)
  call : ∀ c i ctx s, Prod.map id view (k.call c i ctx s) = k'.call c i ctx (view s)

namespace View

theorem update (h : View view k k') (f : Handle → Handle) (s : σ) :
    view (k.update f s) = k'.update f (view s) := by
  rw [Client.update, Client.update, h.setHandle, h.handle]

theorem follow (h : View view k k') (old new : Id) (s : σ) :
    view (k.follow old new s) = k'.follow old new (view s) := by
  rw [Client.follow, Client.follow, h.update, h.note]

theorem callBound (h : View view k k') (c : Call) (s : σ) :
    Prod.map id view (k.callBound c s) = k'.callBound c (view s) := by
  rw [Client.callBound, Client.callBound, h.call, h.handle]

theorem reissue (h : View view k k') (c : Call) (n : Nat) (s : σ) :
    Prod.map id view (k.reissue c n s) = k'.reissue c n (view s) := by
  induction n generalizing s with
  | zero =>
    unfold Client.reissue
    rw [← h.callBound]
    obtain ⟨o, s'⟩ := k.callBound c s
    cases o with
    | ok a => simp [h.handle]
    | error f => cases f <;> simp [h.follow]
  | succ n ih =>
    unfold Client.reissue
    rw [← h.callBound]
    obtain ⟨o, s'⟩ := k.callBound c s
    cases o with
    | ok a => simp [h.handle]
    | error f => cases f <;> simp [ih, h.follow]

theorem absorb (h : View view k k') (c : Call) (fallback : c.Result) (s : σ) :
    Prod.map id view (k.absorb c fallback s) = k'.absorb c fallback (view s) := by
  unfold Client.absorb
  rw [← h.callBound]
  obtain ⟨o, s'⟩ := k.callBound c s
  cases o with
  | ok a => rfl
  | error f => cases f <;> simp [h.follow]

theorem persist (h : View view k k') (c : Call) (s : σ) :
    Prod.map id view (k.persist c s) = k'.persist c (view s) := by
  rw [Client.persist, Client.persist, ← h.reissue]
  rfl

theorem getStart (h : View view k k') (s : σ) :
    Prod.map id view (k.getStart s) = k'.getStart (view s) := by
  unfold Client.getStart
  rw [h.handle, ← h.reissue]
  cases (k.handle s).start with
  | some t => rfl
  | none =>
    obtain ⟨o, s'⟩ := k.reissue .getStart Handle.patience s
    cases o <;> simp [h.update]

theorem getHost (h : View view k k') (s : σ) :
    Prod.map id view (k.getHost s) = k'.getHost (view s) := by
  unfold Client.getHost
  rw [h.handle, ← h.reissue]
  cases (k.handle s).host with
  | some host => rfl
  | none =>
    obtain ⟨o, s'⟩ := k.reissue .getHost Handle.patience s
    cases o <;> simp [h.update]

theorem perform (h : View view k k') (c : Call) (s : σ) :
    Prod.map id view (k.perform c s) = k'.perform c (view s) := by
  cases c with
  | getStart => exact h.getStart s
  | getHost => exact h.getHost s
  | touch => exact h.absorb .touch () s
  | keys => exact h.absorb .keys [] s
  | get key => exact h.absorb (.get key) none s
  | set key value =>
    cases value with
    | absent =>
      have hremove := h.persist (.remove key) s
      unfold Client.perform
      simp only
      rw [← hremove]
      rfl
    | _ => exact h.persist (.set key _) s
  | setTimeout limit => exact h.persist (.setTimeout limit) s
  | getLastAccess => exact h.persist .getLastAccess s
  | getTimeout => exact h.persist .getTimeout s
  | stop => exact h.persist .stop s
  | remove key => exact h.persist (.remove key) s
  | checkValid => exact h.persist .checkValid s

theorem isValid (h : View view k k') (s : σ) :
    Prod.map id view (k.isValid s) = k'.isValid (view s) := by
  unfold Client.isValid
  rw [← h.perform]
  obtain ⟨o, s'⟩ := k.perform .checkValid s
  cases o with
  | ok a => rfl
  | error f =>
    by_cases hf : f.isInvalidSession <;> simp [hf, h.note, h.handle]

end View
end Client
end Sessions
