import Sessions.Proofs.Engine.History
import Sessions.Proofs.Store.Population

/-!
# Sessions.Proofs.Engine.Population

Where sessions come from and where they go. As long as nobody drops sessions past the manager, a
live session leaves the store by no way: room is made, and the store is purged, of ended sessions
only. So those that were started are there, unless they were stopped or expired.

* `Ledger.Conserved` is the invariant: from one content to the next only ended sessions are gone,
  and the number of live ones is what the counters say.
* `Ledger.Conserved.step`: every step of the books preserves it.
* `live_sessions_are_conserved`: what holds of any run.
-/

namespace Sessions

/-- The command drops no session by its id. -/
def Engine.Command.KeepsSessions (c : Engine.Command) : Prop := ∀ r, c ≠ .store (.remove r)

namespace Ledger

/-- Only ended sessions are gone from one content to the next, the last content is the one that the
store has, and of the sessions that were started those are live that neither were stopped nor
expired. -/
structure Conserved (l : Ledger) : Prop where
  chain : l.contents.IsChain Roster.Retains
  last : l.contents.getLast? = some l.store.records
  balance : l.store.records.population + l.stopped + l.expired = l.started

variable {source : IdSource} {l l' : Ledger} {store : Store}

theorem Conserved.extend (h : l.Conserved) (hcontents : l'.contents = l.contents ++ [store.records])
    (hstore : l'.store = store) (hretains : l.store.records.Retains store.records)
    (hbalance : store.records.population + l'.stopped + l'.expired = l'.started) :
    l'.Conserved := by
  refine ⟨?_, ?_, by rwa [hstore]⟩
  · rw [hcontents, List.isChain_append]
    refine ⟨h.chain, .singleton _, ?_⟩
    intro s hs s' hs'
    rw [h.last, Option.mem_some_iff] at hs
    rw [List.head?_cons, Option.mem_some_iff] at hs'
    rw [← hs, ← hs']
    exact hretains
  · rw [hcontents, hstore, List.getLast?_concat]

/-- What is written over a live record moves the population by what the record behind it lacks. -/
theorem population_of_written {r r' : Record} (hread : l.store.read r.id = some r)
    (hlive : r.isTerminal = false) (hid : r'.id = r.id) (hupdate : l.store.update r' = .ok store) :
    store.records.population + 1 = l.store.records.population + r'.headcount := by
  have hwritten := Store.population_update (hid ▸ hread) hupdate
  rwa [Record.headcount_of_live hlive] at hwritten

/-- Every step of the books preserves the invariant, if no session is dropped by its id. -/
theorem Conserved.step (h : l.Conserved) (hstep : Step source Engine.Command.KeepsSessions l l') :
    l'.Conserved := by
  have hbalance := h.balance
  cases hstep with
  | draw => exact ⟨h.chain, h.last, hbalance⟩
  | @start host now limit store lines hcheck hcreate =>
    refine h.extend (contents_book l.draw store .start _) rfl (Store.retains_create hcreate) ?_
    have hmore := Store.population_create hcreate
    rw [Record.headcount_of_live rfl] at hmore
    change store.records.population + l.stopped + l.expired = l.started + 1
    rw [hmore, ← hbalance]
    omega
  | @change r r' store hread hamends hupdate =>
    refine h.extend (contents_keep l store) rfl (Store.retains_update hupdate) ?_
    have hsame := population_of_written hread hamends.live hamends.id hupdate
    rw [Record.headcount_of_live hamends.live'] at hsame
    change store.records.population + l.stopped + l.expired = l.started
    omega
  | @stop r r' now store hread hstop hupdate =>
    obtain ⟨hlive, hstopped⟩ := Record.stop_eq_ok_iff.1 hstop
    have hend : r'.isTerminal = true := by rw [← hstopped]; rfl
    refine h.extend (contents_book l store .stop _) rfl (Store.retains_update hupdate) ?_
    have hless := population_of_written hread hlive (Record.evolves_of_stop hstop).id hupdate
    rw [Record.headcount_of_terminal hend] at hless
    change store.records.population + (l.stopped + 1) + l.expired = l.started
    omega
  | @expire r now store hread hnow hupdate =>
    have hlive := Record.isTerminal_of_validity (Or.inr hnow)
    refine h.extend (contents_book l store .expiration _) rfl (Store.retains_update hupdate) ?_
    have hless := population_of_written hread hlive r.marked_id hupdate
    rw [Record.headcount_of_terminal r.marked_isTerminal] at hless
    change store.records.population + l.stopped + (l.expired + 1) = l.started
    omega
  | drop ref id hkeeps => exact absurd rfl (hkeeps ref)
  | purge _ =>
    refine h.extend (contents_keep l _) rfl l.store.retains_purge ?_
    rw [Store.population_purge]
    exact hbalance
  | limit _ => exact ⟨h.chain, h.last, hbalance⟩
  | rule _ _ _ => exact ⟨h.chain, h.last, hbalance⟩

theorem Conserved.path (h : l.Conserved)
    (hpath : Path source Engine.Command.KeepsSessions l l') : l'.Conserved := by
  induction hpath with
  | refl => exact h
  | tail _ hstep ih => exact ih.step hstep

theorem conserved_opening (policy : StorePolicy) (admission : Admission) :
    (Engine.opening (Store.new policy) admission).Conserved :=
  ⟨.singleton _, rfl, rfl⟩

end Ledger

/-! ## Every run -/

namespace Engine

/-- **Live sessions are conserved.** Over any run of commands that go through the manager, purge the
store or set its limit, however the commands of listeners nest: from each content that the store
ever has to the next one, whatever record is gone had been stopped or had expired; the last of these
contents is the one that the store has behind the run; and there the number of live records is the
number of sessions that were started, less those that were stopped and those that expired. -/
theorem live_sessions_are_conserved {settings : Settings} {clock : Clock} {source : IdSource}
    {level : Level} {e : Engine} (hnew : Engine.new settings clock source level = .ok e)
    (depth : Nat) {cs : List Command} (hcs : ∀ c ∈ cs, c.Orderly Command.KeepsSessions) :
    (after depth cs e).ledger.contents.IsChain
      (fun s s' => ∀ id r, s.get? id = some r → s'.get? id = none → r.isTerminal = true) ∧
    (after depth cs e).ledger.contents.getLast? = some (after depth cs e).store.records ∧
    ((after depth cs e).store.live.length : Int) =
      (after depth cs e).stats.started - (after depth cs e).stats.stopped -
        (after depth cs e).stats.expired := by
  have hconserved := (Ledger.conserved_opening settings.store _).path (path_of_run hnew depth hcs)
  refine ⟨hconserved.chain, hconserved.last, ?_⟩
  have hbalance : (after depth cs e).store.live.length + (after depth cs e).stats.stopped +
      (after depth cs e).stats.expired = (after depth cs e).stats.started := hconserved.balance
  omega

/-- A listener that starts another session for every one that expires. -/
def breeder : Listener Command where
  name := "breeder"
  hears ev := ev = .expiration
  react _ _ := ⟨[.start none], none⟩

theorem orderly_breeder : breeder.Orderly Command.KeepsSessions := by
  intro ev n c hc
  rw [List.mem_singleton.1 hc]
  exact .plain rfl (by intro r h; cases h)

/-- In a store with room for two, one session expires, which starts a third one in the place of a
stopped one; then the ended ones are purged. -/
theorem live_sessions_are_conserved_through_eviction :
    ∃ e : Engine, Engine.new {} (.still 7) (fun n => (0, n.toUInt64)) .silent = .ok e ∧
      ∃ e', e' = after 2 [.listen breeder, .store (.setLimit 2), .start none, .start none,
        .call .stop (.started 1 []) ⟨none⟩, .advanceClock 1800001, .sweep, .store .purge] e ∧
      e'.stats.started = 3 ∧ e'.store.evictions = 1 ∧ e'.store.removed = 1 ∧
      (e'.store.live.length : Int) = e'.stats.started - e'.stats.stopped - e'.stats.expired ∧
      e'.store.live.length = 1 := by
  let cs : List Command := [.listen breeder, .store (.setLimit 2), .start none, .start none,
    .call .stop (.started 1 []) ⟨none⟩, .advanceClock 1800001, .sweep, .store .purge]
  have hcs : ∀ c ∈ cs, c.Orderly Command.KeepsSessions := by
    refine List.forall_mem_cons.2 ⟨.listen (by intro r h; cases h) orderly_breeder, ?_⟩
    simp only [List.forall_mem_cons, List.not_mem_nil, false_imp_iff, implies_true, and_true]
    refine ⟨?_, ?_, ?_, ?_, ?_, ?_, ?_⟩ <;> exact .plain rfl (by intro r h; cases h)
  obtain ⟨_, _, hlive⟩ :=
    @live_sessions_are_conserved {} (.still 7) (fun n => (0, n.toUInt64)) .silent _ rfl 2 cs hcs
  exact ⟨_, rfl, after 2 cs _, rfl, by decide +kernel, by decide +kernel, by decide +kernel, hlive,
    by decide +kernel⟩

end Engine
end Sessions
