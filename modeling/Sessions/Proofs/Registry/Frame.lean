import Sessions.Registry

/-!
# Sessions.Proofs.Registry.Frame

What an announcement can do to the state that it happens in. It comes down to what listeners hear, to the
actions that they take, and to lines of the log.

* `Stage.Tame good`: no listener takes any other actions than good ones.
* `Stage.Acts st good R` says that good actions, and lines of the log, keep a relation between states.
* `Stage.Acts.tell`: then a listener that is told leads on from where it has heard the event.
* `Stage.Keeps st good R` says that what listeners hear keeps it, too, and that it need only be shown where
  the listeners are tame.
* `Stage.Keeps.announce`: then an announcement keeps it.
-/

namespace Sessions
namespace Stage

variable {W A R : Type} {st : Stage W A R} {good : A → Prop} {Rel : W → W → Prop}

def Tame (st : Stage W A R) (good : A → Prop) (w : W) : Prop :=
  ∀ ear ∈ (st.registry w).ears, ∀ ev n, ∀ a ∈ (ear.listener.react ev n).actions, good a

/-- A listener hears an event about a session, and has done nothing yet. -/
def heard (st : Stage W A R) (ev : Event) (r : Record) (i : ListenerId) (name : Text) (w : W) : W :=
  st.update (fun g => (g.hear i ev).beginDelivery name ev r) w

/-- The relation is kept by the actions of listeners, and by the log. -/
structure Acts (st : Stage W A R) (good : A → Prop) (Rel : W → W → Prop) : Prop where
  refl : ∀ w, Rel w w
  trans : ∀ {a b c}, Rel a b → Rel b c → Rel a c
  act : ∀ r delivery a w, good a →
    Rel w (st.update (·.noteOutcome delivery (st.act r a w).1) (st.act r a w).2)
  note : ∀ level message w, Rel w (st.note level message w)

/-- It is kept by what listeners hear, besides. -/
structure Keeps (st : Stage W A R) (good : A → Prop) (Rel : W → W → Prop) : Prop
    extends Acts st good Rel where
  of_tame : ∀ {w w'}, (st.Tame good w → Rel w w') → Rel w w'
  hear : ∀ i ev name r w, Rel w (st.heard ev r i name w)

/-- Those who do not hear an event are passed over. -/
theorem tell_of_deaf {ev : Event} {i : ListenerId} {w : W}
    (hdeaf : ∀ ear, (st.registry w).ears[i]? = some ear → ear.listener.hears ev = false) (r : Record) :
    st.tell ev r i w = w := by
  unfold Stage.tell
  cases hear : (st.registry w).ears[i]? with
  | none => rfl
  | some ear =>
    simp only [hdeaf ear hear, Bool.false_eq_true, if_false]

theorem tellAll_append (ev : Event) (r : Record) (is js : List ListenerId) (w : W) :
    st.tellAll ev r (is ++ js) w = st.tellAll ev r js (st.tellAll ev r is w) := by
  induction is generalizing w with
  | nil => rfl
  | cons i is ih => exact ih _

theorem tellAll_of_deaf {ev : Event} {is : List ListenerId} {w : W}
    (hdeaf : ∀ i ∈ is, ∀ ear, (st.registry w).ears[i]? = some ear → ear.listener.hears ev = false)
    (r : Record) : st.tellAll ev r is w = w := by
  induction is with
  | nil => rfl
  | cons i is ih =>
    rw [Stage.tellAll, tell_of_deaf (hdeaf i List.mem_cons_self) r]
    exact ih fun j hj => hdeaf j (List.mem_cons_of_mem i hj)

namespace Acts

theorem actAll (h : st.Acts good Rel) (r : Record) (delivery : Nat) {as : List A}
    (has : ∀ a ∈ as, good a) (w : W) : Rel w (st.actAll r delivery as w) := by
  induction as generalizing w with
  | nil => exact h.refl w
  | cons a as ih =>
    have hfirst := h.act r delivery a w (has a List.mem_cons_self)
    exact h.trans hfirst (ih (fun a' ha => has a' (List.mem_cons_of_mem a ha)) _)

/-- A listener that is told hears the event first; from there on it is its actions. -/
theorem tell (h : st.Acts good Rel) {w : W} (htame : st.Tame good w) {i : ListenerId} {ear : Ear A}
    (hear : (st.registry w).ears[i]? = some ear) {ev : Event} (hhears : ear.listener.hears ev = true)
    (r : Record) : Rel (st.heard ev r i ear.listener.name w) (st.tell ev r i w) := by
  -- the reaction is fixed before the listener acts, so it is that of a tame listener
  have hactions := htame ear (List.mem_of_getElem? hear) ev (ear.told ev)
  have hacted := h.actAll r (st.registry w).deliveries.length hactions
    (st.heard ev r i ear.listener.name w)
  unfold Stage.tell
  simp only [hear, if_pos hhears]
  cases (ear.listener.react ev (ear.told ev)).failure with
  | none => exact hacted
  | some words => exact h.trans hacted (h.note _ _ _)

end Acts

namespace Keeps

theorem tell (h : st.Keeps good Rel) (ev : Event) (r : Record) (i : ListenerId) (w : W) :
    Rel w (st.tell ev r i w) := by
  refine h.of_tame fun htame => ?_
  cases hear : (st.registry w).ears[i]? with
  | none =>
    rw [tell_of_deaf (fun ear hear' => by rw [hear] at hear'; cases hear') r]
    exact h.refl w
  | some ear =>
    cases hhears : ear.listener.hears ev with
    | true => exact h.trans (h.hear i ev _ r w) (h.toActs.tell htame hear hhears r)
    | false =>
      rw [tell_of_deaf (fun ear' hear' => by rw [hear] at hear'; cases hear'; exact hhears) r]
      exact h.refl w

theorem announce (h : st.Keeps good Rel) (ev : Event) (r : Record) (w : W) :
    Rel w (st.announce ev r w) := by
  have htellAll : ∀ (is : List ListenerId) (w : W), Rel w (st.tellAll ev r is w) := by
    intro is
    induction is with
    | nil => exact h.refl
    | cons i is ih => exact fun w => h.trans (h.tell ev r i w) (ih _)
  exact htellAll _ w

end Keeps
end Stage
end Sessions
