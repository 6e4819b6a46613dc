import Sessions.Fault

/-!
# Sessions.Program

Programs that ask questions of their surroundings. A program is a tree: it is done, with an answer
or a fault, or it asks a question and goes on with whatever is answered. What the questions mean is
left open, so the same program can be run alone, inside a callback of another one, or step by step
beside others.

* `Program.run` answers the questions from a state that the answers may change.
* `run_bind`, `run_attempt` and `run_question` say how runs are put together.
-/

namespace Sessions

/-- A program over questions `Q`, each with its type of answers. -/
inductive Program (Q : Type) (A : Q → Type) (α : Type) where
  | done (outcome : Except Fault α)
  | ask (q : Q) (next : A q → Program Q A α)

namespace Program

variable {Q : Type} {A : Q → Type} {α β σ : Type}

/-- One program behind the other. A fault ends both. -/
def bind : Program Q A α → (α → Program Q A β) → Program Q A β
  | done (.ok a), f => f a
  | done (.error e), _ => done (.error e)
  | ask q next, f => ask q fun a => (next a).bind f

instance : Monad (Program Q A) where
  pure a := done (.ok a)
  bind := bind

def question (q : Q) : Program Q A (A q) := ask q fun a => done (.ok a)

def fail (f : Fault) : Program Q A α := done (.error f)

def ofExcept (r : Except Fault α) : Program Q A α := done r

/-- The same program with its fault, if any, as an answer. -/
def attempt : Program Q A α → Program Q A (Except Fault α)
  | done r => done (.ok r)
  | ask q next => ask q fun a => (next a).attempt

/-- Run a program, answering its questions from a state. -/
def run (answer : (q : Q) → σ → A q × σ) : Program Q A α → σ → Except Fault α × σ
  | done r, s => (r, s)
  | ask q next, s => (next (answer q s).1).run answer (answer q s).2

variable (answer : (q : Q) → σ → A q × σ)

@[simp] theorem run_pure (a : α) (s : σ) : (pure a : Program Q A α).run answer s = (.ok a, s) := rfl

@[simp] theorem run_fail (f : Fault) (s : σ) :
    (fail f : Program Q A α).run answer s = (.error f, s) := rfl

@[simp] theorem run_ofExcept (r : Except Fault α) (s : σ) :
    (ofExcept r : Program Q A α).run answer s = (r, s) := rfl

@[simp] theorem run_question (q : Q) (s : σ) :
    (question q : Program Q A (A q)).run answer s = (.ok (answer q s).1, (answer q s).2) := rfl

theorem run_bind (p : Program Q A α) (f : α → Program Q A β) (s : σ) :
    (p >>= f).run answer s =
      match p.run answer s with
      | (.ok a, s') => (f a).run answer s'
      | (.error e, s') => (.error e, s') := by
  change (p.bind f).run answer s = _
  induction p generalizing s with
  | done r => cases r <;> rfl
  | ask q next ih => exact ih _ _

theorem run_attempt (p : Program Q A α) (s : σ) :
    p.attempt.run answer s = (.ok (p.run answer s).1, (p.run answer s).2) := by
  induction p generalizing s with
  | done r => rfl
  | ask q next ih => exact ih _ _

theorem bind_done (p : Program Q A α) : p.bind (fun a => done (.ok a)) = p := by
  induction p with
  | done r => cases r <;> rfl
  | ask q next ih => exact congrArg (ask q) (funext fun a => ih a)

theorem bind_bind (p : Program Q A α) (f : α → Program Q A β) {γ : Type}
    (g : β → Program Q A γ) : (p.bind f).bind g = p.bind fun x => (f x).bind g := by
  induction p with
  | done r => cases r <;> rfl
  | ask q next ih => exact congrArg (ask q) (funext fun a => ih a)

instance : LawfulMonad (Program Q A) :=
  LawfulMonad.mk' (Program Q A) (fun p => bind_done p) (fun _ _ => rfl)
    (fun p f g => bind_bind p f g)

end Program
end Sessions
