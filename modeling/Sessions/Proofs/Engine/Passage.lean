import Sessions.Proofs.Engine.Commands
import Sessions.Proofs.Engine.History
import Sessions.Proofs.Store.Eviction

/-!
# Sessions.Proofs.Engine.Passage

How the content of the store gets from one engine to a later one: through the contents that the journal
has in between. Whatever an engine does, with any hooks and any listeners, each of them comes from the one
before by a use of the store, so a record that ended has ended for as long as it is there.

* `Roster.Passes R s cs s'`: from `s` through `cs` to `s'`, each step of the kind `R`.
* `Engine.Through R e e'`: the same of two engines, as the journal tells it.
* `settles_answer`, `settles_runOp`: one question of the manager, and its programs.
* `settles_perform`: every command, with callbacks nested to any depth.
-/

namespace Sessions

namespace Roster

variable {R R' : Roster → Roster → Prop} {s s' : Roster} {cs ds : List Roster}

/-- From one content through others to the last one, each step of a given kind. -/
def Passes (R : Roster → Roster → Prop) (s : Roster) : List Roster → Roster → Prop
  | [], s' => s' = s
  | c :: cs, s' => R s c ∧ Passes R c cs s'

theorem passes_append {m : Roster} (h : Passes R s cs m) (h' : Passes R m ds s') :
    Passes R s (cs ++ ds) s' := by
  induction cs generalizing s with
  | nil =>
    cases h
    exact h'
  | cons c cs ih => exact ⟨h.1, ih h.2⟩

theorem Passes.mono (hR : ∀ s s', R s s' → R' s s') (h : Passes R s cs s') : Passes R' s cs s' := by
  induction cs generalizing s with
  | nil => exact h
  | cons c cs ih => exact ⟨hR _ _ h.1, ih h.2⟩

/-- Where all contents on the way hold the same sessions, each step holds them. -/
theorem Passes.and_peers (h : Passes R s cs s') (hpeers : ∀ c ∈ cs, s.Peers c) :
    Passes (fun s s' => R s s' ∧ s.Peers s') s cs s' := by
  induction cs generalizing s with
  | nil => exact h
  | cons c cs ih =>
    have hfirst := hpeers c List.mem_cons_self
    refine ⟨⟨h.1, hfirst⟩, ih h.2 fun d hd => ?_⟩
    exact hfirst.symm.trans (hpeers d (List.mem_cons_of_mem c hd))

end Roster

namespace Engine

variable {R R' : Roster → Roster → Prop} {act : Act} {e e' e'' : Engine}

/-- The contents that the journal has behind those of an earlier engine. -/
def contentsSince (e e' : Engine) : List Roster :=
  (e'.journal.drop e.journal.length).filterMap (·.content?)

/-- The content of the store got from the one engine to the other through contents that the journal has,
each step of a given kind. -/
def Through (R : Roster → Roster → Prop) (e e' : Engine) : Prop :=
  ∃ added, e'.journal = e.journal ++ added ∧
    Roster.Passes R e.store.records (added.filterMap (·.content?)) e'.store.records

namespace Through

/-- Neither the records nor the journal changed. -/
theorem frame (hrecords : e'.store.records = e.store.records) (hjournal : e'.journal = e.journal) :
    Through R e e' := ⟨[], by rw [hjournal, List.append_nil], hrecords⟩

theorem refl (e : Engine) : Through R e e := .frame rfl rfl

theorem trans (h : Through R e e') (h' : Through R e' e'') : Through R e e'' := by
  obtain ⟨added, hjournal, hpasses⟩ := h
  obtain ⟨added', hjournal', hpasses'⟩ := h'
  refine ⟨added ++ added', ?_, ?_⟩
  · rw [hjournal', hjournal, List.append_assoc]
  · rw [List.filterMap_append]
    exact Roster.passes_append hpasses hpasses'

theorem mono (hR : ∀ s s', R s s' → R' s s') (h : Through R e e') : Through R' e e' := by
  obtain ⟨added, hjournal, hpasses⟩ := h
  exact ⟨added, hjournal, hpasses.mono hR⟩

theorem keep {store : Store} (h : R e.store.records store.records) : Through R e (e.keep store) :=
  ⟨[.stored store.records], rfl, h, rfl⟩

theorem told (e : Engine) (ev : Event) (r : Record) : Through R e (e.enter (.told ev r)) :=
  ⟨[.told ev r], rfl, rfl⟩

end Through

/-! ## Callbacks -/

/-- Whatever is done inside of callbacks, ended records stay so. -/
def Settling (act : Act) : Prop := ∀ c e, Through Roster.Settles e (act c e).2

section

variable (hact : Settling act)
include hact

theorem settles_actAll (cs : List Command) (e : Engine) :
    Through Roster.Settles e (actAll act cs e).2 := by
  induction cs generalizing e with
  | nil => exact .refl e
  | cons c cs ih =>
    have hfirst := hact c e
    unfold actAll
    split
    · rename_i heq
      rw [heq] at hfirst
      exact hfirst.trans (ih _)
    · rename_i heq
      rwa [heq] at hfirst

theorem settles_react (reaction : Reaction Command) (e : Engine) :
    Through Roster.Settles e (react act reaction e).2 := by
  have hacted := settles_actAll hact reaction.actions e
  unfold react
  split
  · rename_i heq
    rwa [heq] at hacted
  · rename_i heq
    rw [heq] at hacted
    split <;> exact hacted

theorem settles_runHooks (hooks : List Hook) (e : Engine) :
    Through Roster.Settles e (runHooks act hooks e).2 := by
  induction hooks generalizing e with
  | nil => exact .refl e
  | cons h hooks ih =>
    have hfirst := settles_react hact h.reaction e
    unfold runHooks
    split
    · rename_i heq
      rw [heq] at hfirst
      exact hfirst.trans (ih _)
    · rename_i heq
      rwa [heq] at hfirst

theorem settles_fire (p : Point) (e : Engine) : Through Roster.Settles e (fire act p e).2 :=
  settles_runHooks hact _ { e with disturbance := e.disturbance.pass p }

theorem settles_behindHooks {α : Type} (p : Point) {use : Engine → Except Fault α × Engine}
    (huse : ∀ e, Through Roster.Settles e (use e).2) (e : Engine) :
    Through Roster.Settles e (behindHooks act p use e).2 := by
  have hfired := settles_fire hact p e
  unfold behindHooks
  split
  · rename_i heq
    rwa [heq] at hfired
  · rename_i heq
    rw [heq] at hfired
    exact hfired.trans (huse _)

theorem settles_announce (ev : Event) (r : Record) (e : Engine) :
    Through Roster.Settles e (announce act ev r e) := by
  have hkeeps : (stage act).Keeps (fun _ => True) (Through Roster.Settles) :=
    { refl := .refl
      trans := .trans
      of_tame := fun h => h fun _ _ _ _ _ _ => trivial
      hear := fun _ _ _ _ _ => .frame rfl rfl
      act := fun r _ c e _ => hact c { e with subject := some r.id }
      note := fun _ _ _ => .frame rfl rfl }
  exact (Through.told e ev r).trans (hkeeps.announce ev r _)

end

/-! ## Questions and programs -/

theorem settles_createNow (r : Record) (e : Engine) :
    Through Roster.Settles e (e.createNow r).2 := by
  cases h : e.createNow r with
  | mk o e' =>
    cases o with
    | error f =>
      obtain rfl := createNow_eq_error h
      exact .refl _
    | ok u =>
      obtain ⟨store, lines, hcreate, rfl⟩ := createNow_eq_ok h
      have hkept : Through Roster.Settles { e with known := e.known ++ [r.id] }
          ({ e with known := e.known ++ [r.id] }.keep store) := .keep (Store.settles_create hcreate)
      exact hkept

theorem settles_updateNow (r : Record) (e : Engine) :
    Through Roster.Settles e (e.updateNow r).2 := by
  cases h : e.updateNow r with
  | mk o e' =>
    cases o with
    | error f =>
      obtain rfl := updateNow_eq_error h
      exact .refl _
    | ok u =>
      obtain ⟨store, hupdate, rfl⟩ := updateNow_eq_ok h
      exact .keep (Store.settles_update hupdate)

theorem settles_answer (hact : Settling act) (q : Manager.Question) (e : Engine) :
    Through Roster.Settles e (answer act q e).2 := by
  cases q with
  | read id => exact settles_behindHooks hact .read (fun e => .refl e) e
  | create r => exact settles_behindHooks hact .create (settles_createNow r) e
  | update r => exact settles_behindHooks hact .update (settles_updateNow r) e
  | live =>
    change Through Roster.Settles e (listThenHooks act e).2
    have hfired := settles_fire hact .list e
    unfold listThenHooks
    split
    · exact .refl e
    · split
      · rename_i heq
        rwa [heq] at hfired
      · rename_i heq
        rwa [heq] at hfired
  | announce ev r => exact settles_announce hact ev r e
  | _ => exact .frame rfl rfl

theorem settles_runOp {α : Type} (hact : Settling act) (p : Manager.Op α) (e : Engine) :
    Through Roster.Settles e (runOp act p e).2 := by
  unfold runOp
  induction p generalizing e with
  | done r => exact .refl e
  | ask q next ih => exact (settles_answer hact q e).trans (ih _ _)

/-! ## Commands -/

theorem settles_performStore (c : StoreCommand) (e : Engine) :
    Through Roster.Settles e (e.performStore c).2 := by
  cases c with
  | purge => exact .keep (Store.settles_purge e.store)
  | remove r => exact .keep (Store.settles_remove e.store _)
  | change r ops =>
    unfold performStore
    simp only
    split
    · exact .refl e
    · split
      · exact .refl e
      · rename_i hupdate
        exact .keep (Store.settles_update hupdate)
  | put d =>
    unfold performStore
    simp only
    split
    · exact .refl e
    · rename_i store lines hput
      cases hbuild : d.build with
      | error f =>
        rw [hbuild] at hput
        cases hput
      | ok r =>
        rw [hbuild] at hput
        have hkept : Through Roster.Settles e (e.keep store) := .keep (Store.settles_create hput)
        exact hkept
  | _ => exact .frame rfl rfl

theorem carried_through (hact : Settling act) : Carried act (Through Roster.Settles) where
  refl := .refl
  trans := .trans
  frame hrecords hjournal _ _ := .frame hrecords hjournal
  program p e := settles_runOp hact p e
  store := settles_performStore

/-- Whatever a command does, ended records stay so as long as they are there. -/
theorem settles_performWith (hact : Settling act) : Settling (performWith act) := by
  intro c e
  cases hbrings : c.bringsIn with
  | false => exact (carried_through hact).performWith hbrings e
  | true =>
    cases c with
    | listen l | hook point n reaction => exact .frame rfl rfl
    | unlisten name =>
      unfold performWith
      simp only
      cases e.registry.named? name <;> exact .frame rfl rfl
    | _ => cases hbrings

theorem settles_perform (n : Nat) : Settling (perform n) := by
  induction n with
  | zero => exact settles_performWith fun _ e => .refl e
  | succ n ih => exact settles_performWith ih

end Engine
end Sessions
