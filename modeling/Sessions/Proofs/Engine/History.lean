import Mathlib.Data.List.Chain
import Sessions.Proofs.Engine.Conduct

/-!
# Sessions.Proofs.Engine.History

The history of the records in the store. Every content that the store ever had stands in the
journal, also those that it had in the middle of an operation, so a statement about the journal is
one about every moment of a run.

* `Ledger.Lawful` is the invariant: every record of every content is sound, and from one content to
  the next a record that stays evolves.
* `Ledger.Lawful.step`: every step of the books preserves it.
* `records_evolve`: what holds of the records of any run.
-/

namespace Sessions

/-! ## Contents -/

/-- The content that an entry of the journal tells. -/
def Engine.Entry.content? : Engine.Entry → Option Roster
  | .stored s => some s
  | .told .. => none

/-- The contents of the store that a journal tells, in order, from none at all on. -/
def Engine.contentsOf (journal : List Engine.Entry) : List Roster :=
  Roster.empty :: journal.filterMap (·.content?)

def Ledger.contents (l : Ledger) : List Roster := Engine.contentsOf l.journal

namespace Roster

/-- Whatever record stays from the first content to the second one evolves. -/
def Evolves (s s' : Roster) : Prop :=
  ∀ id r r', s.get? id = some r → s'.get? id = some r' → r.Evolves r'

theorem evolves_of_subset {s s' : Roster}
    (h : ∀ id r, s'.get? id = some r → s.get? id = some r) : s.Evolves s' := by
  intro id r r' hr hr'
  rw [h id r' hr', Option.some.injEq] at hr
  rw [hr]
  exact .refl r

/-- In a chain of contents that all hold an id, its records evolve over any distance. -/
theorem pairwise_of_isChain {l : List Roster} {id : Id} (hchain : l.IsChain Evolves)
    (hstay : ∀ s ∈ l, s.contains id = true) :
    l.Pairwise fun s s' => ∀ r r', s.get? id = some r → s'.get? id = some r' → r.Evolves r' := by
  -- the content behind the first one holds the id, too, and carries the way to all that come later
  induction hchain with
  | nil => exact .nil
  | singleton s => exact List.pairwise_singleton _ s
  | @cons_cons s s₁ l hstep _ ih =>
    have hrest := ih fun x hx => hstay x (List.mem_cons_of_mem s hx)
    refine List.pairwise_cons.2 ⟨fun x hx r r' hr hr' => ?_, hrest⟩
    have hs₁ : s₁ ∈ s :: s₁ :: l := List.mem_cons_of_mem s List.mem_cons_self
    obtain ⟨r₁, hr₁⟩ := Option.isSome_iff_exists.1 (hstay s₁ hs₁)
    have hfirst : r.Evolves r₁ := hstep id r r₁ hr hr₁
    rcases List.mem_cons.1 hx with rfl | hx
    · rw [hr₁, Option.some.injEq] at hr'
      exact hr' ▸ hfirst
    · exact hfirst.trans ((List.pairwise_cons.1 hrest).1 x hx r₁ r' hr₁ hr')

end Roster

/-! ## The invariant -/

namespace Ledger

theorem Step.journal_isPrefix {source : IdSource} {p : Engine.Command → Prop} {l l' : Ledger}
    (h : Step source p l l') : l.journal <+: l'.journal := by
  have hkeep : ∀ store, l.journal <+: (l.keep store).journal := fun store => List.prefix_append _ _
  have hbook : ∀ store ev r, l.journal <+: (l.book store ev r).journal := by
    intro store ev r
    cases ev <;> exact (hkeep store).trans (List.prefix_append _ _)
  cases h with
  | draw => exact List.prefix_rfl
  | start _ _ => exact hbook _ .start _
  | change _ _ _ => exact hkeep _
  | stop _ _ _ => exact hbook _ .stop _
  | expire _ _ _ => exact hbook _ .expiration _
  | drop ref id _ => exact hkeep _
  | purge _ => exact hkeep _
  | limit _ => exact List.prefix_rfl
  | rule _ _ _ => exact List.prefix_rfl

theorem Path.journal_isPrefix {source : IdSource} {p : Engine.Command → Prop} {l l' : Ledger}
    (h : Path source p l l') : l.journal <+: l'.journal := by
  induction h with
  | refl => exact List.prefix_rfl
  | tail _ hstep ih => exact ih.trans hstep.journal_isPrefix

theorem contents_isPrefix {l l' : Ledger} (h : l.journal <+: l'.journal) :
    l.contents <+: l'.contents :=
  List.cons_prefix_cons.2 ⟨rfl, h.filterMap _⟩

/-- Every record of every content is sound, records evolve from one content to the next, and the
last content is the one that the store has. -/
structure Lawful (l : Ledger) : Prop where
  sound : ∀ s ∈ l.contents, ∀ id r, s.get? id = some r → r.Sound
  chain : l.contents.IsChain Roster.Evolves
  last : l.contents.getLast? = some l.store.records

variable {l l' : Ledger}

theorem Lawful.sound_of_read (h : l.Lawful) {id : Id} {r : Record}
    (hread : l.store.read id = some r) : r.Sound :=
  h.sound l.store.records (List.mem_of_getLast? h.last) id r hread

theorem contents_keep (l : Ledger) (store : Store) :
    (l.keep store).contents = l.contents ++ [store.records] := by
  simp [contents, Engine.contentsOf, keep, Engine.Entry.content?]

theorem contents_book (l : Ledger) (store : Store) (ev : Event) (r : Record) :
    (l.book store ev r).contents = l.contents ++ [store.records] := by
  cases ev <;> simp [contents, Engine.contentsOf, book, tell, tally, keep, Engine.Entry.content?]

/-- A new content keeps the history lawful if its records are sound and evolved. -/
theorem Lawful.extend (h : l.Lawful) {store : Store}
    (hcontents : l'.contents = l.contents ++ [store.records]) (hstore : l'.store = store)
    (hsound : ∀ id r, store.read id = some r → r.Sound)
    (hevolves : l.store.records.Evolves store.records) : l'.Lawful := by
  refine ⟨?_, ?_, ?_⟩
  · rw [hcontents]
    intro s hs id r hr
    rcases List.mem_append.1 hs with hold | hnew
    · exact h.sound s hold id r hr
    · rw [List.mem_singleton.1 hnew] at hr
      exact hsound id r hr
  · rw [hcontents, List.isChain_append]
    refine ⟨h.chain, .singleton _, ?_⟩
    intro s hs s' hs'
    rw [h.last, Option.mem_some_iff] at hs
    rw [List.head?_cons, Option.mem_some_iff] at hs'
    rw [← hs, ← hs']
    exact hevolves
  · rw [hcontents, hstore, List.getLast?_concat]

theorem Lawful.rewrite (h : l.Lawful) {r r' : Record} {store : Store}
    (hcontents : l'.contents = l.contents ++ [store.records]) (hstore : l'.store = store)
    (hread : l.store.read r.id = some r) (hevolves : r.Evolves r') (hsound : r.Sound → r'.Sound)
    (hupdate : l.store.update r' = .ok store) : l'.Lawful := by
  have hr := h.sound_of_read hread
  refine h.extend hcontents hstore ?_ ?_
  · intro id x hx
    rw [Store.read_update hupdate] at hx
    split at hx
    · cases hx
      exact hsound hr
    · exact h.sound_of_read hx
  · -- only under the id of the record is there anything new
    intro id x x' hx hx'
    have hx'' : store.read id = some x' := hx'
    rw [Store.read_update hupdate] at hx''
    split at hx''
    · rename_i hid
      cases hx''
      rw [hid, hevolves.id] at hx
      rw [Store.read, hx, Option.some.injEq] at hread
      exact hread ▸ hevolves
    · have hsame : l.store.records.get? id = some x' := hx''
      rw [hx, Option.some.injEq] at hsame
      exact hsame ▸ .refl x

theorem Lawful.shrink (h : l.Lawful) {store : Store}
    (hsubset : ∀ id r, store.read id = some r → l.store.read id = some r) :
    (l.keep store).Lawful :=
  h.extend (contents_keep l store) rfl (fun id r hr => h.sound_of_read (hsubset id r hr))
    (Roster.evolves_of_subset hsubset)

/-- Every step of the books preserves the invariant. -/
theorem Lawful.step {source : IdSource} {p : Engine.Command → Prop} (h : l.Lawful)
    (hstep : Step source p l l') : l'.Lawful := by
  cases hstep with
  | draw => exact ⟨h.sound, h.chain, h.last⟩
  | @start host now limit store lines hcheck hcreate =>
    obtain ⟨hnew, hfresh, hothers⟩ := Store.read_create hcreate
    have hcontents := contents_book l.draw store .start
      (Record.new (Id.ofWords (source l.drawn)) now host limit)
    refine h.extend hcontents rfl ?_ ?_
    · intro id r hr
      by_cases hid : id = Id.ofWords (source l.drawn)
      · rw [hid] at hr
        have heq := hfresh.symm.trans hr
        rw [Option.some.injEq] at heq
        exact heq ▸ Record.sound_new _ _ _ _
      · rcases hothers id hid with hsame | ⟨_, hgone, _⟩
        · exact h.sound_of_read (hsame ▸ hr)
        · rw [hgone] at hr
          cases hr
    · intro id r r' hr hr'
      have hr'' : store.read id = some r' := hr'
      by_cases hid : id = Id.ofWords (source l.drawn)
      · rw [hid] at hr
        have habsent := hnew.symm.trans hr
        cases habsent
      · rcases hothers id hid with hsame | ⟨_, hgone, _⟩
        · have hstays : l.store.read id = some r' := hsame ▸ hr''
          have heq := hstays.symm.trans hr
          rw [Option.some.injEq] at heq
          exact heq ▸ .refl r'
        · rw [hgone] at hr''
          cases hr''
  | @change r r' store hread hamends hupdate =>
    exact h.rewrite (contents_keep l store) rfl hread hamends.evolves hamends.sound hupdate
  | @stop r r' now store hread hstop hupdate =>
    have hevolves := Record.evolves_of_stop hstop
    exact h.rewrite (contents_book l store _ _) rfl hread hevolves (fun hr => hr.stop hstop) hupdate
  | @expire r now store hread hnow hupdate =>
    have hexpire := Record.expire_of_timedOut hnow
    have hevolves := Record.evolves_of_expire hexpire
    exact h.rewrite (contents_book l store _ _) rfl hread hevolves (fun hr => hr.expire hexpire)
      hupdate
  | drop ref id _ =>
    refine h.shrink fun id' r hr => ?_
    rw [Store.read_remove] at hr
    split at hr
    · cases hr
    · exact hr
  | purge _ =>
    refine h.shrink fun id r hr => ?_
    rw [Store.read_purge, Option.filter_eq_some_iff] at hr
    exact hr.1
  | limit _ => exact ⟨h.sound, h.chain, h.last⟩
  | rule _ _ _ => exact ⟨h.sound, h.chain, h.last⟩

theorem Lawful.path {source : IdSource} {p : Engine.Command → Prop} (h : l.Lawful)
    (hpath : Path source p l l') : l'.Lawful := by
  induction hpath with
  | refl => exact h
  | tail _ hstep ih => exact ih.step hstep

theorem lawful_opening (policy : StorePolicy) (admission : Admission) :
    (Engine.opening (Store.new policy) admission).Lawful := by
  refine ⟨?_, .singleton _, rfl⟩
  intro s hs id r hr
  rw [List.mem_singleton.1 hs] at hr
  cases hr

end Ledger

/-! ## Every run -/

namespace Engine

theorem contents_of_append {p : Command → Prop} {e : Engine} (hreg : e.Regular p) (depth : Nat)
    {cs cs' : List Command} (hcs : ∀ c ∈ cs, c.Orderly p)
    (hcs' : ∀ c ∈ cs', c.Orderly p) :
    (after depth cs e).ledger.contents <+: (after depth (cs ++ cs') e).ledger.contents := by
  have hreg' := (after_leads depth hcs e).regular hreg
  obtain ⟨_, _, hpath⟩ := after_leads depth hcs' (after depth cs e) hreg'
  have happend : after depth (cs ++ cs') e = after depth cs' (after depth cs e) :=
    List.foldl_append
  rw [happend]
  exact Ledger.contents_isPrefix hpath.journal_isPrefix

/-- **Histories of records.** Over any run of commands that write through the manager, in every
content that the store ever has, every record stands under its own id and is sound. As long as an id
stays in the store its record evolves: who it is stays, its last access never moves back, and once
it ended it stays as it is. The contents go through the one that the store has behind each command
of the run, and end with the one that it has in the end. -/
theorem records_evolve {settings : Settings} {clock : Clock} {source : IdSource} {level : Level}
    {e : Engine} (hnew : Engine.new settings clock source level = .ok e) (depth : Nat)
    {cs : List Command} (hcs : ∀ c ∈ cs, c.Orderly fun _ => True) :
    (∀ s ∈ (after depth cs e).ledger.contents, ∀ id r, s.get? id = some r →
      r.id = id ∧ r.Sound) ∧
    (∀ id stay, stay <:+: (after depth cs e).ledger.contents →
      (∀ s ∈ stay, s.contains id = true) →
      stay.Pairwise fun s s' => ∀ r r', s.get? id = some r → s'.get? id = some r' →
        r.Evolves r') ∧
    (after depth cs e).ledger.contents.getLast? = some (after depth cs e).store.records ∧
    ∀ n, (after depth (cs.take n) e).ledger.contents <+: (after depth cs e).ledger.contents := by
  have hlawful := (Ledger.lawful_opening settings.store _).path (path_of_run hnew depth hcs)
  refine ⟨fun s hs id r hr => ⟨Roster.id_of_get? hr, hlawful.sound s hs id r hr⟩, ?_,
    hlawful.last, ?_⟩
  · intro id stay hstay hholds
    have hchain := List.IsChain.infix hlawful.chain hstay
    exact Roster.pairwise_of_isChain hchain hholds
  · intro n
    have hreg : e.Regular fun _ => True := (regular_of_new hnew).1
    have htake : ∀ c ∈ cs.take n, c.Orderly fun _ => True :=
      fun c hc => hcs c (List.mem_of_mem_take hc)
    have hdrop : ∀ c ∈ cs.drop n, c.Orderly fun _ => True :=
      fun c hc => hcs c (List.mem_of_mem_drop hc)
    have hbegins := contents_of_append hreg depth htake hdrop
    rwa [List.take_append_drop] at hbegins

/-- A session that is used, then stopped while the clock has gone back. -/
theorem records_evolve_through_stop :
    ∃ (e : Engine) (r r' : Record),
      Engine.new {} (.still 7) (fun n => (0, n.toUInt64)) .silent = .ok e ∧
      r.stopTime = none ∧ r'.stopTime = some 3 ∧
      (after 1 [.start none, .advanceClock 5, .call .touch (.started 1 []) ⟨none⟩, .setClock 3,
        .call .stop (.started 1 []) ⟨none⟩] e).store.records.list = [r'] ∧
      r.Evolves r' ∧ r'.Sound := by
  let cs : List Command := [.start none, .advanceClock 5, .call .touch (.started 1 []) ⟨none⟩,
    .setClock 3, .call .stop (.started 1 []) ⟨none⟩]
  let r := Record.new (Id.ofWords (0, 0)) 7 none 1800000
  let r' : Record := { r with lastAccess := 12, stopTime := some 3 }
  have hcs : ∀ c ∈ cs, c.Orderly fun _ => True := Command.orderly_of_isPlain rfl
  obtain ⟨hsound, hstays, hlast, _⟩ :=
    @records_evolve {} (.still 7) (fun n => (0, n.toUInt64)) .silent _ rfl 1 cs hcs
  refine ⟨_, r, r', rfl, rfl, rfl, rfl, ?_, ?_⟩
  · have hstay := hstays r.id _ (List.tail_suffix _).isInfix (by decide +kernel)
    exact List.pairwise_iff_getElem.1 hstay 0 2 (by decide +kernel) (by decide +kernel)
      (by decide) r r' (by decide +kernel) (by decide +kernel)
  · exact (hsound _ (List.mem_of_getLast? hlast) r'.id r' (by decide +kernel)).2

end Engine
end Sessions
