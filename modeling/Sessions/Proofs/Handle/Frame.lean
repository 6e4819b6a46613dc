import Sessions.Handle

/-!
# Sessions.Proofs.Handle.Frame

What an operation through a handle can do to the state that it lives in. It comes down to calls on
the manager, to the place of the handle, and to lines of the log.

* `Client.perform_of_kinds`, `Client.isValid_of_check`: what the operations are made of.
* `Client.Keeps k R` says that these three keep a relation between states.
* `Client.Keeps.perform` and `Client.Keeps.isValid`: then every operation keeps it.
-/

namespace Sessions

namespace Client

variable {σ : Type} {k : Client σ} {R : σ → σ → Prop}

/-- Every operation is one of four kinds. -/
theorem perform_of_kinds {s : σ} (hstart : R s (k.getStart s).2) (hhost : R s (k.getHost s).2)
    (habsorb : ∀ (c : Call) (fallback : c.Result), R s (k.absorb c fallback s).2)
    (hpersist : ∀ c : Call, R s (k.persist c s).2) (c : Call) : R s (k.perform c s).2 := by
  cases c with
  | getStart => exact hstart
  | getHost => exact hhost
  | touch => exact habsorb .touch ()
  | keys => exact habsorb .keys []
  | get key => exact habsorb (.get key) none
  | set key value =>
    cases value with
    | absent => exact hpersist (.remove key)
    | _ => exact hpersist (.set key _)
  | setTimeout limit => exact hpersist (.setTimeout limit)
  | getLastAccess => exact hpersist .getLastAccess
  | getTimeout => exact hpersist .getTimeout
  | stop => exact hpersist .stop
  | remove key => exact hpersist (.remove key)
  | checkValid => exact hpersist .checkValid

/-- The question whether the session is valid is the check, and at most a line of the log. -/
theorem isValid_of_check {s : σ} (hcheck : R s (k.perform .checkValid s).2)
    (hnote : ∀ level message s', R s s' → R s (k.note level message s')) : R s (k.isValid s).2 := by
  unfold Client.isValid
  split
  · rename_i heq
    rwa [heq] at hcheck
  · rename_i heq
    rw [heq] at hcheck
    split
    · exact hnote _ _ _ hcheck
    · exact hcheck

/-- The relation is kept by calls, by the place of the handle, and by the log. -/
structure Keeps (k : Client σ) (R : σ → σ → Prop) : Prop where
  refl : ∀ s, R s s
  trans : ∀ {a b c}, R a b → R b c → R a c
  call : ∀ c id ctx s, R s (k.call c id ctx s).2
  setHandle : ∀ h s, R s (k.setHandle h s)
  note : ∀ level message s, R s (k.note level message s)

namespace Keeps

theorem follow (h : k.Keeps R) (old new : Id) (s : σ) : R s (k.follow old new s) :=
  h.trans (h.note _ _ s) (h.setHandle _ _)

theorem reissue (h : k.Keeps R) (c : Call) (n : Nat) (s : σ) : R s (k.reissue c n s).2 := by
  induction n generalizing s with
  | zero =>
    have hcall : R s (k.callBound c s).2 := h.call _ _ _ _
    unfold Client.reissue
    split
    · rename_i heq
      rwa [heq] at hcall
    · rename_i heq
      rw [heq] at hcall
      exact h.trans hcall (h.follow _ _ _)
    · rename_i heq
      rwa [heq] at hcall
  | succ n ih =>
    have hcall : R s (k.callBound c s).2 := h.call _ _ _ _
    unfold Client.reissue
    split
    · rename_i heq
      rwa [heq] at hcall
    · rename_i heq
      rw [heq] at hcall
      exact h.trans (h.trans hcall (h.follow _ _ _)) (ih _)
    · rename_i heq
      rwa [heq] at hcall

theorem absorb (h : k.Keeps R) (c : Call) (fallback : c.Result) (s : σ) :
    R s (k.absorb c fallback s).2 := by
  have hcall : R s (k.callBound c s).2 := h.call _ _ _ _
  unfold Client.absorb
  split
  · rename_i heq
    rw [heq] at hcall
    exact h.trans hcall (h.follow _ _ _)
  · exact hcall

theorem persist (h : k.Keeps R) (c : Call) (s : σ) : R s (k.persist c s).2 :=
  h.reissue c Handle.patience s

theorem getStart (h : k.Keeps R) (s : σ) : R s (k.getStart s).2 := by
  have hcall := h.reissue .getStart Handle.patience s
  unfold Client.getStart
  split
  · exact h.refl s
  · split
    · rename_i heq
      rw [heq] at hcall
      exact h.trans hcall (h.setHandle _ _)
    · rename_i heq
      rwa [heq] at hcall

theorem getHost (h : k.Keeps R) (s : σ) : R s (k.getHost s).2 := by
  have hcall := h.reissue .getHost Handle.patience s
  unfold Client.getHost
  split
  · exact h.refl s
  · split
    · rename_i heq
      rw [heq] at hcall
      exact h.trans hcall (h.setHandle _ _)
    · rename_i heq
      rwa [heq] at hcall

theorem perform (h : k.Keeps R) (c : Call) (s : σ) : R s (k.perform c s).2 :=
  perform_of_kinds (h.getStart s) (h.getHost s) (fun c b => h.absorb c b s) (fun c => h.persist c s) c

theorem isValid (h : k.Keeps R) (s : σ) : R s (k.isValid s).2 :=
  isValid_of_check (h.perform .checkValid s) fun _ _ _ hs => h.trans hs (h.note _ _ _)

end Keeps
end Client

end Sessions
