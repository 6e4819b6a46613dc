import Mathlib.Data.List.Chain
import Sessions.Program
import Sessions.Proofs.Handle.Frame

/-!
# Sessions.Proofs.Handle.Coherence

What a handle remembers, whatever its manager does. The manager is any program: while it answers a call
it may look at the same handle and use it, and goes on with what comes of that, so the handle may have
been bound to other sessions any number of times before an answer arrives.

* `Interplay` is a handle, such a manager and the history of what the manager answered and what the
  handle became. `Interplay.perform` carries a use out, with calls nested up to a depth.
* `Handle.Backed`: what is remembered was answered for the id that the handle is bound to.
* `Handle.Moves`: what a handle can become next.
* `Good` is the invariant, kept by whoever keeps to the handle's operations (`Leads`).
* `remembered_answers_are_for_bound_id`: the whole, at every point of every run.
-/

namespace Sessions

/-- What can be done with a handle that answers: an operation, or the question whether its session is
valid. -/
inductive Handle.Use where
  | call (c : Call)
  | isValid

@[reducible] def Handle.Use.Result : Handle.Use → Type
  | .call c => c.Result
  | .isValid => Bool

namespace Interplay

/-- What a manager can do while it answers: use the handle, look at it, and read and change a state of
its own. -/
inductive Question (μ : Type) where
  | operate (u : Handle.Use)
  | look
  | state
  | become (m : μ)

@[reducible] def Reply {μ : Type} : Question μ → Type
  | .operate u => Except Fault u.Result
  | .look => Id × Nat
  | .state => μ
  | .become _ => Unit

/-- How a manager answers calls. -/
abbrev Manner (μ : Type) := (c : Call) → Id → Context → Program (Question μ) Reply c.Result

inductive Event where
  | answered (c : Call) (id : Id) (r : Except Fault c.Result)
  | became (h : Handle)

end Interplay

/-- A handle with its manager, and what happened so far. -/
structure Interplay (μ : Type) where
  handle : Handle
  manager : μ
  history : List Interplay.Event
  log : Log

namespace Interplay

variable {μ : Type}

/-- How uses inside of calls are carried out. -/
abbrev Act (μ : Type) := (u : Handle.Use) → Interplay μ → Except Fault u.Result × Interplay μ

def enter (s : Interplay μ) (ev : Event) : Interplay μ := { s with history := s.history ++ [ev] }

def answer (act : Act μ) : (q : Question μ) → Interplay μ → Reply q × Interplay μ
  | .operate u, s => act u s
  | .look, s => ((s.handle.id, s.handle.replacements), s)
  | .state, s => (s.manager, s)
  | .become m, s => ((), { s with manager := m })

/-- How an interplay looks to its handle. -/
def client (act : Act μ) (manner : Manner μ) : Client (Interplay μ) where
  handle := Interplay.handle
  setHandle h s := { s with handle := h }.enter (.became h)
  call c id ctx s :=
    let (r, s) := (manner c id ctx).run (answer act) s
    (r, s.enter (.answered c id r))
  note level message s := { s with log := s.log.write level message }

/-- Carry a use out, given how uses inside of calls are carried out. -/
def performWith (manner : Manner μ) (act : Act μ) : Act μ
  | .call c => (client act manner).perform c
  | .isValid => (client act manner).isValid

/-- Carry a use out, with calls nested up to a depth; a deeper use fails. -/
def perform (manner : Manner μ) : (depth : Nat) → Act μ
  | 0 => performWith manner fun _ s => (.error .alien, s)
  | n + 1 => performWith manner (perform manner n)

/-- The interplay behind uses from outside. -/
def after (manner : Manner μ) (depth : Nat) (us : List Handle.Use) (s : Interplay μ) : Interplay μ :=
  us.foldl (fun s u => (perform manner depth u s).2) s

/-- An interplay with a handle that was just bound. -/
def opening (h : Handle) (m : μ) (log : Log) : Interplay μ := ⟨h, m, [.became h], log⟩

/-- What the handle was, one after the other. -/
def Event.handle? : Event → Option Handle
  | .answered .. => none
  | .became h => some h

def handlesOf (history : List Event) : List Handle := history.filterMap (·.handle?)

end Interplay

open Interplay (Event)

namespace Handle

/-- What the handle remembers was answered for the id that it is bound to. -/
structure Backed (h : Handle) (history : List Event) : Prop where
  start : ∀ t, h.start = some t → .answered .getStart h.id (.ok t) ∈ history
  host : ∀ host, h.host = some host → .answered .getHost h.id (.ok host) ∈ history

/-- What a handle can become: bound as before, or bound anew and with nothing remembered. -/
def Moves (h h' : Handle) : Prop :=
  h'.id = h.id ∧ h'.replacements = h.replacements ∨
    h'.replacements = h.replacements + 1 ∧ h'.start = none ∧ h'.host = none

variable {h : Handle} {history history' : List Event} {id : Id}

namespace Backed

theorem mono (hbacked : h.Backed history) (hgrown : history ⊆ history') : h.Backed history' :=
  ⟨fun t ht => hgrown (hbacked.start t ht), fun host hhost => hgrown (hbacked.host host hhost)⟩

theorem of_empty (hstart : h.start = none) (hhost : h.host = none) : h.Backed history := by
  constructor
  · intro t ht
    rw [hstart] at ht
    cases ht
  · intro host ht
    rw [hhost] at ht
    cases ht

theorem rememberStart {t : Timestamp} (hbacked : h.Backed history)
    (hanswered : .answered .getStart id (.ok t) ∈ history) :
    (h.rememberStart id t).Backed history := by
  unfold Handle.rememberStart
  split
  · rename_i hbound
    refine ⟨fun t' ht' => ?_, hbacked.host⟩
    cases ht'
    exact hbound ▸ hanswered
  · exact hbacked

theorem rememberHost {host : Option Text} (hbacked : h.Backed history)
    (hanswered : .answered .getHost id (.ok host) ∈ history) :
    (h.rememberHost id host).Backed history := by
  unfold Handle.rememberHost
  split
  · rename_i hbound
    refine ⟨hbacked.start, fun host' hhost' => ?_⟩
    cases hhost'
    exact hbound ▸ hanswered
  · exact hbacked

end Backed

theorem moves_rebind (h : Handle) (new : Id) : h.Moves (h.rebind new) := .inr ⟨rfl, rfl, rfl⟩

theorem moves_rememberStart (h : Handle) (id : Id) (t : Timestamp) :
    h.Moves (h.rememberStart id t) := by
  unfold Handle.rememberStart
  split <;> exact .inl ⟨rfl, rfl⟩

theorem moves_rememberHost (h : Handle) (id : Id) (host : Option Text) :
    h.Moves (h.rememberHost id host) := by
  unfold Handle.rememberHost
  split <;> exact .inl ⟨rfl, rfl⟩

end Handle

namespace Interplay

variable {μ : Type} {s s' s'' : Interplay μ} {manner : Manner μ} {act : Act μ}

/-- What holds throughout: the handle is the last one of the history, and each was backed when it came
about and follows from the one before. -/
structure Good (s : Interplay μ) : Prop where
  last : (handlesOf s.history).getLast? = some s.handle
  held : s.handle.Backed s.history
  backed : ∀ before h, before ++ [.became h] <+: s.history → h.Backed before
  moves : (handlesOf s.history).IsChain Handle.Moves

theorem handlesOf_append (l l' : List Event) : handlesOf (l ++ l') = handlesOf l ++ handlesOf l' :=
  List.filterMap_append

namespace Good

/-- An answer is noted: the handle is as it was. -/
theorem answered (hs : s.Good) (c : Call) (id : Id) (r : Except Fault c.Result) :
    (s.enter (.answered c id r)).Good := by
  have hsame : handlesOf (s.enter (.answered c id r)).history = handlesOf s.history := by
    rw [enter, handlesOf_append]
    exact List.append_nil _
  refine ⟨?_, ?_, ?_, ?_⟩
  · rw [hsame]
    exact hs.last
  · exact hs.held.mono (List.subset_append_left _ _)
  · intro before h hprefix
    obtain heq | hold := List.prefix_concat_iff.1 hprefix
    · cases (List.append_inj' heq rfl).2
    · exact hs.backed before h hold
  · rw [hsame]
    exact hs.moves

/-- The handle becomes what it can become, and that is backed. -/
theorem became (hs : s.Good) {h : Handle} (hbacked : h.Backed s.history)
    (hmoves : s.handle.Moves h) : ({ s with handle := h }.enter (.became h)).Good := by
  have hhandles : handlesOf ({ s with handle := h }.enter (.became h)).history =
      handlesOf s.history ++ [h] := handlesOf_append _ _
  refine ⟨?_, ?_, ?_, ?_⟩
  · rw [hhandles, List.getLast?_concat]
    rfl
  · exact hbacked.mono (List.subset_append_left _ _)
  · intro before h' hprefix
    obtain heq | hold := List.prefix_concat_iff.1 hprefix
    · obtain ⟨rfl, hlast⟩ := List.append_inj' heq rfl
      cases hlast
      exact hbacked
    · exact hs.backed before h' hold
  · rw [hhandles, List.isChain_append]
    refine ⟨hs.moves, List.isChain_singleton h, fun x hx y hy => ?_⟩
    rw [hs.last] at hx
    cases hx
    cases hy
    exact hmoves

theorem opening (h : Handle) (hstart : h.start = none) (hhost : h.host = none) (m : μ) (log : Log) :
    (opening h m log).Good where
  last := rfl
  held := .of_empty hstart hhost
  backed before h' hprefix := by
    have hopening : before ++ [.became h'] <+: [] ++ [.became h] := hprefix
    obtain heq | hold := List.prefix_concat_iff.1 hopening
    · obtain ⟨rfl, hlast⟩ := List.append_inj' heq rfl
      cases hlast
      exact .of_empty hstart hhost
    · simp at hold
  moves := List.isChain_singleton h

end Good

/-! ## What a use does -/

/-- What was good is good afterwards, and nothing of the history is lost. -/
def Leads (s s' : Interplay μ) : Prop := s.Good → s'.Good ∧ s.history <+: s'.history

namespace Leads

theorem refl (s : Interplay μ) : Leads s s := fun hs => ⟨hs, List.prefix_rfl⟩

theorem trans (h : Leads s s') (h' : Leads s' s'') : Leads s s'' := by
  intro hs
  obtain ⟨hs', hgrown⟩ := h hs
  obtain ⟨hs'', hgrown'⟩ := h' hs'
  exact ⟨hs'', hgrown.trans hgrown'⟩

/-- Neither the handle nor the history changes. -/
theorem frame (hhandle : s'.handle = s.handle) (hhistory : s'.history = s.history) : Leads s s' := by
  intro hs
  refine ⟨⟨?_, ?_, ?_, ?_⟩, hhistory ▸ List.prefix_rfl⟩
  · rw [hhistory, hhandle]
    exact hs.last
  · rw [hhistory, hhandle]
    exact hs.held
  · rw [hhistory]
    exact hs.backed
  · rw [hhistory]
    exact hs.moves

end Leads

/-- Uses inside of calls keep to what a use does. -/
def Obeys (act : Act μ) : Prop := ∀ u s, Leads s (act u s).2

theorem leads_answer (hact : Obeys act) (q : Question μ) (s : Interplay μ) :
    Leads s (answer act q s).2 := by
  cases q with
  | operate u => exact hact u s
  | look => exact .refl s
  | state => exact .refl s
  | become m => exact .frame rfl rfl

/-- Whatever the manager does before it answers. -/
theorem leads_run (hact : Obeys act) {α : Type} (p : Program (Question μ) Reply α)
    (s : Interplay μ) : Leads s (p.run (answer act) s).2 := by
  induction p generalizing s with
  | done r => exact .refl s
  | ask q next ih => exact (leads_answer hact q s).trans (ih _ _)

theorem leads_become {h : Handle} (hbacked : s.Good → h.Backed s.history)
    (hmoves : s.handle.Moves h) : Leads s ({ s with handle := h }.enter (.became h)) :=
  fun hs => ⟨hs.became (hbacked hs) hmoves, List.prefix_append _ _⟩

theorem leads_follow (old new : Id) (s : Interplay μ) :
    Leads s ((client act manner).follow old new s) := by
  have hnote : Leads s ((client act manner).note .debug
      ("Session handle rebinding from " ++ old ++ " to " ++ new) s) := .frame rfl rfl
  exact hnote.trans (leads_become (fun _ => .of_empty rfl rfl) (Handle.moves_rebind _ new))

section

variable (hact : Obeys act)
include hact

/-- The manager's answer to a call is on record. -/
theorem leads_callBound {c : Call} {r : Except Fault c.Result}
    (h : (client act manner).callBound c s = (r, s')) :
    Leads s s' ∧ .answered c s.handle.id r ∈ s'.history := by
  cases h
  have hrun := leads_run hact (manner c s.handle.id s.handle.context) s
  refine ⟨hrun.trans fun hs => ⟨hs.answered _ _ _, List.prefix_append _ _⟩, ?_⟩
  exact List.mem_append_right _ (List.mem_singleton_self _)

/-- What calling again comes to in the end was answered for the id that it is given with. -/
theorem leads_reissue {c : Call} {n : Nat} {r : Except Fault (Id × c.Result)}
    (h : (client act manner).reissue c n s = (r, s')) :
    Leads s s' ∧ ∀ id a, r = .ok (id, a) → .answered c id (.ok a) ∈ s'.history := by
  induction n generalizing s with
  | zero =>
    unfold Client.reissue at h
    split at h
    · rename_i a s₁ hcall
      cases h
      obtain ⟨hleads, hanswered⟩ := leads_callBound hact hcall
      refine ⟨hleads, fun id b hb => ?_⟩
      cases hb
      exact hanswered
    · rename_i old new cause s₁ hcall
      cases h
      refine ⟨(leads_callBound hact hcall).1.trans (leads_follow old new s₁), ?_⟩
      rintro id b ⟨⟩
    · rename_i f s₁ hcall
      cases h
      refine ⟨(leads_callBound hact hcall).1, ?_⟩
      rintro id b ⟨⟩
  | succ n ih =>
    unfold Client.reissue at h
    split at h
    · rename_i a s₁ hcall
      cases h
      obtain ⟨hleads, hanswered⟩ := leads_callBound hact hcall
      refine ⟨hleads, fun id b hb => ?_⟩
      cases hb
      exact hanswered
    · rename_i old new cause s₁ hcall
      obtain ⟨hrest, hanswered⟩ := ih h
      exact ⟨((leads_callBound hact hcall).1.trans (leads_follow old new s₁)).trans hrest,
        hanswered⟩
    · rename_i f s₁ hcall
      cases h
      refine ⟨(leads_callBound hact hcall).1, ?_⟩
      rintro id b ⟨⟩

theorem leads_persist (c : Call) (s : Interplay μ) :
    Leads s ((client act manner).persist c s).2 :=
  (leads_reissue hact (c := c) (n := Handle.patience) rfl).1

theorem leads_absorb (c : Call) (fallback : c.Result) (s : Interplay μ) :
    Leads s ((client act manner).absorb c fallback s).2 := by
  unfold Client.absorb
  split
  · rename_i old new cause s₁ hcall
    exact (leads_callBound hact hcall).1.trans (leads_follow old new s₁)
  · exact (leads_callBound hact (c := c) rfl).1

theorem leads_getStart (s : Interplay μ) : Leads s ((client act manner).getStart s).2 := by
  unfold Client.getStart
  split
  · exact .refl s
  · split
    · rename_i id t s₁ hreissue
      obtain ⟨hleads, hanswered⟩ := leads_reissue hact hreissue
      exact hleads.trans (leads_become (fun hs => hs.held.rememberStart (hanswered id t rfl))
        (Handle.moves_rememberStart _ id t))
    · rename_i f s₁ hreissue
      exact (leads_reissue hact hreissue).1

theorem leads_getHost (s : Interplay μ) : Leads s ((client act manner).getHost s).2 := by
  unfold Client.getHost
  split
  · exact .refl s
  · split
    · rename_i id host s₁ hreissue
      obtain ⟨hleads, hanswered⟩ := leads_reissue hact hreissue
      exact hleads.trans (leads_become (fun hs => hs.held.rememberHost (hanswered id host rfl))
        (Handle.moves_rememberHost _ id host))
    · rename_i f s₁ hreissue
      exact (leads_reissue hact hreissue).1

theorem leads_perform (c : Call) (s : Interplay μ) :
    Leads s ((client act manner).perform c s).2 :=
  Client.perform_of_kinds (leads_getStart hact s) (leads_getHost hact s)
    (fun c fallback => leads_absorb hact c fallback s) (fun c => leads_persist hact c s) c

theorem obeys_performWith : Obeys (performWith manner act) := by
  intro u s
  cases u with
  | call c => exact leads_perform hact c s
  | isValid =>
    have hcheck := @leads_perform _ manner _ hact .checkValid s
    exact Client.isValid_of_check hcheck fun _ _ _ hs => hs.trans (.frame rfl rfl)

end

theorem obeys_perform (manner : Manner μ) (n : Nat) : Obeys (perform manner n) := by
  -- what a manager does while it answers is one level deeper
  induction n with
  | zero => exact obeys_performWith fun _ s => .refl s
  | succ n ih => exact obeys_performWith ih

theorem after_leads (manner : Manner μ) (n : Nat) (us : List Handle.Use) (s : Interplay μ) :
    Leads s (after manner n us s) := by
  induction us generalizing s with
  | nil => exact .refl s
  | cons u us ih => exact (obeys_perform manner n u s).trans (ih _)

/-- **Coherence.** Whatever the manager answers, and however it uses the handle while it answers: whenever
the handle remembers a start or a host, the manager had by then answered just that to a call for the id
that the handle is bound to. A handle that is bound anew remembers nothing. -/
theorem remembered_answers_are_for_bound_id (manner : Manner μ) (depth : Nat)
    (us : List Handle.Use) {id : Id} {ctx : Context} {h : Handle} (hbind : Handle.bind id ctx = .ok h)
    (m : μ) (log : Log) :
    (∀ before h', before ++ [.became h'] <+: (after manner depth us (opening h m log)).history →
      h'.Backed before) ∧
    (handlesOf (after manner depth us (opening h m log)).history).IsChain Handle.Moves ∧
    (handlesOf (after manner depth us (opening h m log)).history).getLast? =
      some (after manner depth us (opening h m log)).handle := by
  have hempty : h.start = none ∧ h.host = none := by
    unfold Handle.bind at hbind
    split at hbind <;> cases hbind
    exact ⟨rfl, rfl⟩
  have hopening := Good.opening h hempty.1 hempty.2 m log
  obtain ⟨hgood, _⟩ := after_leads manner depth us (opening h m log) hopening
  exact ⟨hgood.backed, hgood.moves, hgood.last⟩

/-- A manager that, asked for the start of a session, first lets the handle touch it, which replaces it. -/
def diversion : Manner Unit := fun c id _ =>
  match c with
  | .getStart =>
    if id = "A" then .ask (.operate (.call .touch)) fun _ => .done (.ok 5) else .done (.ok 9)
  | .touch => .done (.error (.replaced id "B" .expiredSession))
  | _ => .done (.error .alien)

/-- The start of the first session arrives when the handle is bound to the second one already, so it is
not remembered. -/
theorem remembered_answers_are_for_bound_id_after_diversion :
    ∃ h s, Handle.bind "A" ⟨none⟩ = .ok h ∧
      s = after diversion 1 [.call .getStart, .call .getStart] (opening h () (Log.new .silent)) ∧
      (perform diversion 1 (.call .getStart) (opening h () (Log.new .silent))).1 = .ok 5 ∧
      (perform diversion 1 (.call .getStart) (opening h () (Log.new .silent))).2.handle =
        ⟨⟨none⟩, "B", 1, none, none⟩ ∧
      s.handle = ⟨⟨none⟩, "B", 1, some 9, none⟩ ∧
      ∀ before h', before ++ [.became h'] <+: s.history → h'.Backed before :=
  ⟨_, _, rfl, rfl, by decide +kernel, by decide +kernel, by decide +kernel,
    (@remembered_answers_are_for_bound_id _ diversion 1 [.call .getStart, .call .getStart] "A" ⟨none⟩ _
      rfl () (Log.new .silent)).1⟩

end Interplay
end Sessions
