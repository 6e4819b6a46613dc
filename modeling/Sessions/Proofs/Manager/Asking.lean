import Sessions.Proofs.Manager.Setting

/-!
# Sessions.Proofs.Manager.Asking

What a program of the manager asks for, and so what it leaves alone: who never asks for the time takes no
reading of the clock, who never asks for an id draws none, who never sees to the background does not switch
it on.

* `Program.Asks P p`: every question that `p` may come to is of the kind `P`.
* `asks_sweepAll`, `asks_sweep`: a sweep asks for no id, and does not see to the background.
* `Engine.SameSupply`, `sameSupply_runOp`: what is left alone by those who ask for none of the three.
-/

namespace Sessions

/-- The clock stands still for so many readings. -/
def Clock.Rests (c : Clock) (n : Nat) : Prop := ∀ k < n, c.course (c.reads + k) = c.course c.reads

instance (c : Clock) (n : Nat) : Decidable (c.Rests n) :=
  inferInstanceAs (Decidable (∀ k < n, c.course (c.reads + k) = c.course c.reads))

namespace Clock.Rests

variable {c : Clock} {n : Nat}

theorem read (h : c.Rests (n + 1)) (hn : 0 < n) : c.read.2.Rests n := by
  intro k hk
  have hfirst := h 1 (by omega)
  have hlater := h (k + 1) (by omega)
  change c.course (c.reads + 1 + k) = c.course (c.reads + 1)
  rw [Nat.add_assoc, Nat.add_comm 1 k, hlater, hfirst]

theorem now_read (h : c.Rests n) (hn : 1 < n) : c.read.2.now = c.now := by
  change c.course (c.reads + 1) + c.offset = c.course c.reads + c.offset
  rw [h 1 hn]

end Clock.Rests

/-! ## Programs and their questions -/

namespace Program

variable {Q : Type} {A : Q → Type} {α β : Type} {P P' : Q → Prop}

/-- Whatever is answered, every question of the program is of the given kind. -/
def Asks (P : Q → Prop) : Program Q A α → Prop
  | done _ => True
  | ask q next => P q ∧ ∀ a, Asks P (next a)

theorem Asks.mono (hP : ∀ q, P q → P' q) {p : Program Q A α} (h : p.Asks P) : p.Asks P' := by
  induction p with
  | done r => trivial
  | ask q next ih => exact ⟨hP q h.1, fun a => ih a (h.2 a)⟩

theorem asks_bind {p : Program Q A α} {f : α → Program Q A β} (hp : p.Asks P)
    (hf : ∀ a, (f a).Asks P) : (p >>= f).Asks P := by
  change (p.bind f).Asks P
  induction p with
  | done r =>
    cases r with
    | ok a => exact hf a
    | error e => trivial
  | ask q next ih => exact ⟨hp.1, fun a => ih a (hp.2 a)⟩

theorem asks_attempt {p : Program Q A α} (hp : p.Asks P) : p.attempt.Asks P := by
  induction p with
  | done r => trivial
  | ask q next ih => exact ⟨hp.1, fun a => ih a (hp.2 a)⟩

/-- What every question of the kind preserves is preserved by the program. -/
theorem run_of_asks {σ : Type} {answer : (q : Q) → σ → A q × σ} {I : σ → Prop} {p : Program Q A α}
    (hp : p.Asks P) (hanswer : ∀ q s, P q → I s → I (answer q s).2) {s : σ} (hs : I s) :
    I (p.run answer s).2 := by
  induction p generalizing s with
  | done r => exact hs
  | ask q next ih => exact ih _ (hp.2 _) (hanswer q s hp.1 hs)

end Program

namespace Manager

open Program

/-- The question is none for the time, for an id, or for the background. -/
def Question.isModest : Question → Bool
  | .clock | .mint | .ensureSweeping => false
  | _ => true

theorem asks_question {P : Question → Prop} {q : Question} (h : P q) : (ask q).Asks P :=
  ⟨h, fun _ => trivial⟩

theorem asks_locked {P : Question → Prop} {α : Type} {p : Op α} (hlock : P .lock) (hunlock : P .unlock)
    (hp : p.Asks P) : (locked p).Asks P :=
  asks_bind (asks_question hlock) fun _ => asks_bind (asks_attempt hp) fun _ =>
    asks_bind (asks_question hunlock) fun _ => trivial

theorem asks_expireIfTimedOut (id : Id) (now : Timestamp) :
    (expireIfTimedOut id now).Asks (·.isModest = true) := by
  refine asks_locked rfl rfl (asks_bind ⟨rfl, fun _ => trivial⟩ fun found => ?_)
  cases found with
  | none => trivial
  | some r =>
    simp only
    split
    · refine asks_bind trivial fun marked => ?_
      exact asks_bind ⟨rfl, fun _ => trivial⟩ fun _ => asks_bind ⟨rfl, fun _ => trivial⟩ fun _ => trivial
    · trivial

theorem asks_sweepOne (r : Record) (now : Timestamp) : (sweepOne r now).Asks (·.isModest = true) := by
  unfold sweepOne
  split
  · refine asks_bind (asks_expireIfTimedOut r.id now) fun outcome => ?_
    split
    · exact asks_bind (asks_question rfl) fun _ => asks_bind (asks_question rfl) fun _ => trivial
    · trivial
  · trivial

/-- The loop of a sweep takes the time from its caller, and asks for nothing of the three. -/
theorem asks_sweepAll (now : Timestamp) (rs : List Record) (t : Tally) :
    (sweepAll now rs t).Asks (·.isModest = true) := by
  induction rs generalizing t with
  | nil => trivial
  | cons r rs ih =>
    refine asks_bind (asks_attempt (asks_sweepOne r now)) fun outcome => ?_
    split
    · exact ih _
    · exact ih t
    · split
      · exact asks_bind (asks_question rfl) fun _ => ih _
      · trivial

/-- A sweep behind its reading of the clock. -/
def sweepAt (now : Timestamp) : Op Nat := do
  let active ← live
  let t ← sweepAll now active ⟨0, 0⟩
  count .sweeps
  log .info t.text
  return t.marked

theorem asks_sweepAt (now : Timestamp) : (sweepAt now).Asks (·.isModest = true) := by
  refine asks_bind ⟨rfl, fun _ => trivial⟩ fun active => asks_bind (asks_sweepAll now active _) ?_
  exact fun t => asks_bind (asks_question rfl) fun _ => asks_bind (asks_question rfl) fun _ => trivial

end Manager

/-! ## What is left alone -/

namespace Engine

variable {act : Act} {e e' e'' : Engine}

/-- The time, the ids to come and the background are as they were. -/
structure SameSupply (e e' : Engine) : Prop where
  clock : e'.clock = e.clock
  source : e'.source = e.source
  drawn : e'.drawn = e.drawn
  background : e'.background = e.background

theorem SameSupply.trans (h : SameSupply e e') (h' : SameSupply e' e'') : SameSupply e e'' :=
  ⟨h'.clock.trans h.clock, h'.source.trans h.source, h'.drawn.trans h.drawn,
    h'.background.trans h.background⟩

theorem SameSupply.draw (h : SameSupply e e') : e'.draw.1 = e.draw.1 := by
  rw [Engine.draw, h.source, h.drawn]
  rfl

theorem sameSupply_answer (act : Act) (hcalm : e.Undisturbed) (hpassive : e.Passive)
    {q : Manager.Question} (hq : q.isModest = true) : SameSupply e (answer act q e).2 := by
  have hsame : SameSupply e e := ⟨rfl, rfl, rfl, rfl⟩
  cases q with
  | clock | mint | ensureSweeping => cases hq
  | read id =>
    rw [hcalm.answer_read]
    exact hsame
  | create r =>
    obtain ⟨store, known, log, contents, heq⟩ := exists_createNow r e
    rw [hcalm.answer_create, heq]
    exact ⟨rfl, rfl, rfl, rfl⟩
  | update r =>
    obtain ⟨store, contents, heq⟩ := exists_updateNow r e
    rw [hcalm.answer_update, heq]
    exact ⟨rfl, rfl, rfl, rfl⟩
  | live =>
    rw [hcalm.answer_live]
    exact hsame
  | announce ev r =>
    obtain ⟨g, log, hannounced, _⟩ := announce_of_passive act hpassive ev r
    have hsecond : (answer act (.announce ev r) e).2 = announce act ev r e := rfl
    rw [hsecond, hannounced]
    exact ⟨rfl, rfl, rfl, rfl⟩
  | _ => exact ⟨rfl, rfl, rfl, rfl⟩

/-- A program that asks for none of the three leaves them alone. -/
theorem sameSupply_runOp {α : Type} (act : Act) (hcalm : e.Undisturbed) (hpassive : e.Passive)
    {p : Manager.Op α} (hp : p.Asks (·.isModest = true)) : SameSupply e (runOp act p e).2 := by
  have hstep : ∀ q e', q.isModest = true → SameSetting e e' ∧ SameSupply e e' →
      SameSetting e (answer act q e').2 ∧ SameSupply e (answer act q e').2 := by
    intro q e' hq ⟨hsetting, hsupply⟩
    have hcalm' := hsetting.undisturbed hcalm
    exact ⟨hsetting.trans (sameSetting_answer act hcalm' hsetting.passive q),
      hsupply.trans (sameSupply_answer act hcalm' hsetting.passive hq)⟩
  exact (Program.run_of_asks hp hstep ⟨.refl hpassive, rfl, rfl, rfl, rfl⟩).2

/-- A sweep takes one reading of the clock. -/
theorem supply_sweep (act : Act) (hcalm : e.Undisturbed) (hpassive : e.Passive) :
    SameSupply e.afterReading (runOp act Manager.sweep e).2 := by
  let e₀ := (e.note .info "Validating all active sessions...").afterReading
  have hcalm₀ : e₀.Undisturbed := hcalm
  have hpassive₀ : e₀.Passive := hpassive
  have hsweep : runOp act Manager.sweep e = runOp act (Manager.sweepAt e.clock.now) e₀ := by
    rw [Manager.sweep, runOp_bind_ok (runOp_log _ _), runOp_bind_ok runOp_clock]
    rfl
  have hrest := sameSupply_runOp act hcalm₀ hpassive₀ (Manager.asks_sweepAt e.clock.now)
  rw [hsweep]
  exact ⟨hrest.clock, hrest.source, hrest.drawn, hrest.background⟩

end Engine
end Sessions
