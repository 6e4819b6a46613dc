import Sessions.Engine.Run
import Sessions.Proofs.Handle.Frame

/-!
# Sessions.Proofs.Engine.Commands

What commands come down to: programs of the manager, uses of the store past it, and changes of everything
else. But for those that bring in others who act later on, a relation between engines is kept by every
command once it is kept by these three.

* `exists_performStore`: what is done past the manager.
* `Engine.Carried act R`: the relation is kept by the three.
* `Carried.performWith`: then it is kept by commands.
-/

namespace Sessions
namespace Engine

variable {act : Act} {R : Engine → Engine → Prop}

/-- The command makes a listener or drops one, or leaves something to be done later. -/
def Command.bringsIn : Command → Bool
  | .listen _ | .unlisten _ | .hook .. => true
  | _ => false

/-- Past the manager only the store is used, and the journal tells what it holds then. -/
theorem exists_performStore (c : StoreCommand) (e : Engine) :
    ∃ store log, ∃ contents : List Roster,
      (e.performStore c).2 = { e with store, log, journal := e.journal ++ contents.map .stored } := by
  have hnothing : ∀ {store log}, ∃ store' log', ∃ contents : List Roster,
      ({ e with store, log } : Engine) =
        { e with store := store', log := log', journal := e.journal ++ contents.map .stored } :=
    fun {store log} => ⟨store, log, [], by simp⟩
  cases c with
  | change r ops =>
    unfold performStore
    simp only
    split
    · exact hnothing
    · split
      · exact hnothing
      · exact ⟨_, _, [_], rfl⟩
  | put d =>
    unfold performStore
    simp only
    split
    · exact hnothing
    · exact ⟨_, _, [_], rfl⟩
  | purge | remove r => exact ⟨_, _, [_], rfl⟩
  | _ => exact hnothing

/-- The relation is kept by what commands come down to. -/
structure Carried (act : Act) (R : Engine → Engine → Prop) : Prop where
  refl : ∀ e, R e e
  trans : ∀ {e e' e''}, R e e' → R e' e'' → R e e''
  frame : ∀ {e e' : Engine}, e'.store.records = e.store.records → e'.journal = e.journal →
    e'.registry = e.registry → e'.disturbance.hooks = e.disturbance.hooks → R e e'
  program : ∀ {α : Type} (p : Manager.Op α) (e : Engine), R e (runOp act p e).2
  store : ∀ c e, R e (e.performStore c).2

namespace Carried

theorem client (h : Carried act R) (name : Text) (bound : Handle) :
    (client act name bound).Keeps R where
  refl := h.refl
  trans := h.trans
  call c id ctx e := h.program (Manager.serve id ctx c) e
  setHandle _ _ := h.frame rfl rfl rfl rfl
  note _ _ _ := h.frame rfl rfl rfl rfl

theorem performHandle (h : Carried act R) (name : Text) (bound : Handle) (c : HandleCommand)
    (e : Engine) : R e (performHandle act name bound c e).2 := by
  cases c with
  | call c => exact (h.client name bound).perform c e
  | isValid => exact (h.client name bound).isValid e
  | _ => exact h.refl e

theorem awaitSweep (h : Carried act R) (e : Engine) : R e (awaitSweep act e).2 := by
  unfold Engine.awaitSweep
  split
  · exact h.refl e
  · rename_i b _
    have hbefore : R e { e with background := b } := h.frame rfl rfl rfl rfl
    have hswept := h.program Manager.sweep { e with background := b }
    exact h.trans (h.trans hbefore hswept) (h.frame rfl rfl rfl rfl)

theorem startHandle (h : Carried act R) (name : Text) (host : Option Text) (ctx : Context)
    (e : Engine) : R e (performWith act (.startHandle name host ctx) e).2 := by
  have hstarted := h.program (Manager.start (host <|> ctx.host)) e
  unfold Engine.performWith
  simp only
  split
  · rename_i heq
    rwa [heq] at hstarted
  · rename_i heq
    rw [heq] at hstarted
    split
    · exact hstarted
    · exact h.trans hstarted (h.frame rfl rfl rfl rfl)

/-- What the three keep is kept by every command that brings nobody in. -/
theorem performWith (h : Carried act R) {c : Command} (hc : c.bringsIn = false) (e : Engine) :
    R e (performWith act c e).2 := by
  cases c with
  | start host => exact h.program (Manager.start host) e
  | call c r ctx => exact h.program (Manager.serve (e.resolve r) ctx c) e
  | isValid r ctx => exact h.program (Manager.isValid (e.resolve r) ctx) e
  | validate r ctx => exact h.program (Manager.validateSession (e.resolve r) ctx) e
  | getSession r ctx => exact h.program (Manager.getSession (e.resolve r) ctx) e
  | lookup r ctx => exact h.program (Manager.lookup (e.resolve r) ctx) e
  | sweep => exact h.program Manager.sweep e
  | awaitSweep => exact h.awaitSweep e
  | store c => exact h.store c e
  | startHandle name host ctx => exact h.startHandle name host ctx e
  | handle name c =>
    unfold Engine.performWith
    simp only
    split
    · exact h.refl e
    · rename_i bound _
      exact h.performHandle name bound c e
  | setInterval t | setTimer name kind | bind name r ctx =>
    unfold Engine.performWith
    simp only
    split <;> exact h.frame rfl rfl rfl rfl
  | listen | unlisten | hook => cases hc
  | _ => exact h.frame rfl rfl rfl rfl

end Carried
end Engine
end Sessions
