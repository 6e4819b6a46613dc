import Sessions.Proofs.Engine.History

/-!
# Sessions.Proofs.Engine.Notices

What is announced about a session, however the commands of listeners nest and whichever updates of
the store fail. No id is drawn twice; everything else follows from the books.

* `Event.Marks` says how a record has to stand before and behind the transition that an event is
  about.
* `Ledger.Accounted` is the invariant: what was announced about a stored session is what its record
  shows, what was counted is what was announced, and every announcement goes with the content that
  was stored for it.
* `Ledger.Accounted.step`: every step of the books preserves it.
* `ends_are_announced_once`: what is announced in any run.
-/

namespace Sessions

/-- The event fits a record, before the transition that it is about and behind it. -/
def Event.Marks : Event → Option Record → Record → Prop
  | .start, before, r => before = none ∧ r.isTerminal = false
  | .stop, before, r =>
    (∃ r₀, before = some r₀ ∧ r₀.isTerminal = false) ∧ r.isStopped = true ∧ r.expired = false
  | .expiration, before, r =>
    (∃ r₀, before = some r₀ ∧ r₀.isTerminal = false) ∧ r.isStopped = false ∧ r.expired = true

/-- What has to be announced about a session beyond its start. -/
def Record.ending (r : Record) : List Event :=
  if r.isStopped then [.stop] else if r.expired then [.expiration] else []

theorem Record.ending_of_live {r : Record} (h : r.isTerminal = false) : r.ending = [] := by
  obtain ⟨hstop, hexp⟩ := isTerminal_eq_false_iff.1 h
  simp [ending, isStopped, hstop, hexp]

/-- All that can ever be announced about a session, in order. -/
def Event.Lives (evs : List Event) : Prop :=
  evs = [] ∨ evs = [.start] ∨ evs = [.start, .stop] ∨ evs = [.start, .expiration]

theorem Event.lives_ending (r : Record) : Event.Lives (.start :: r.ending) := by
  unfold Record.ending
  split
  · exact .inr (.inr (.inl rfl))
  · split
    · exact .inr (.inr (.inr rfl))
    · exact .inr (.inl rfl)

namespace Engine

/-- The event that an entry announces about a session. -/
def Entry.notice? (id : Id) : Entry → Option Event
  | .stored _ => none
  | .told ev r => if r.id = id then some ev else none

/-- The entry announces an event, about whatever session. -/
def Entry.tells (ev : Event) : Entry → Bool
  | .stored _ => false
  | .told ev' _ => ev' = ev

/-- What a journal announces about a session. -/
def noticesOf (journal : List Entry) (id : Id) : List Event := journal.filterMap (·.notice? id)

/-- Behind a journal an event is announced about a record that was just stored for it. -/
def Snapshot (journal : List Entry) (ev : Event) (r : Record) : Prop :=
  ∃ front s s', journal = front ++ [.stored s'] ∧ (contentsOf front).getLast? = some s ∧
    s'.get? r.id = some r ∧ ev.Marks (s.get? r.id) r

theorem exists_content_of_notice {journal : List Entry} {id : Id}
    (htold : ∀ before ev r, before ++ [.told ev r] <+: journal → Snapshot before ev r)
    (hid : noticesOf journal id ≠ []) : ∃ s ∈ contentsOf journal, s.contains id = true := by
  obtain ⟨ev, hev⟩ := List.exists_mem_of_ne_nil _ hid
  obtain ⟨entry, hentry, hnotice⟩ := List.mem_filterMap.1 hev
  cases entry with
  | stored s => cases hnotice
  | told ev' r =>
    obtain ⟨before, behind, rfl⟩ := List.append_of_mem hentry
    have hbegins : before ++ [.told ev' r] <+: before ++ .told ev' r :: behind :=
      ⟨behind, by simp⟩
    obtain ⟨front, s, s', rfl, _, hread, _⟩ := htold before ev' r hbegins
    by_cases hsame : r.id = id
    · refine ⟨s', ?_, by rw [Roster.contains, ← hsame, hread]; rfl⟩
      simp [contentsOf, Entry.content?]
    · simp only [Entry.notice?, if_neg hsame] at hnotice
      cases hnotice

end Engine

namespace Ledger

def counted (l : Ledger) : Event → Nat
  | .start => l.started
  | .stop => l.stopped
  | .expiration => l.expired

/-- The books are right about announcements: those about stored sessions and those about sessions
that were dropped, what was counted, and what came along. -/
structure Accounted (source : IdSource) (l : Ledger) : Prop where
  stored : ∀ id r, l.store.read id = some r → Engine.noticesOf l.journal id = .start :: r.ending
  begun : ∀ s ∈ l.contents, ∀ id, s.contains id = true → Engine.noticesOf l.journal id ≠ []
  drawn : ∀ id, Engine.noticesOf l.journal id ≠ [] →
    ∃ i, i < l.drawn ∧ Id.ofWords (source i) = id
  lives : ∀ id, Event.Lives (Engine.noticesOf l.journal id)
  counted : ∀ ev, l.counted ev = l.journal.countP (·.tells ev)
  told : ∀ before ev r, before ++ [.told ev r] <+: l.journal → Engine.Snapshot before ev r

variable {source : IdSource} {p : Engine.Command → Prop} {l l' : Ledger}

/-! ## Entries -/

theorem noticesOf_keep (l : Ledger) (store : Store) (id : Id) :
    Engine.noticesOf (l.keep store).journal id = Engine.noticesOf l.journal id := by
  simp [Engine.noticesOf, keep, Engine.Entry.notice?]

theorem noticesOf_book (l : Ledger) (store : Store) (ev : Event) (r : Record) (id : Id) :
    Engine.noticesOf (l.book store ev r).journal id =
      Engine.noticesOf l.journal id ++ if r.id = id then [ev] else [] := by
  by_cases hid : r.id = id <;> cases ev <;>
    simp [Engine.noticesOf, book, tell, tally, keep, Engine.Entry.notice?, hid]

theorem counted_keep (l : Ledger) (store : Store) (ev : Event) :
    (l.keep store).counted ev = l.counted ev := by
  cases ev <;> rfl

theorem store_book (l : Ledger) (store : Store) (ev : Event) (r : Record) :
    (l.book store ev r).store = store := by
  cases ev <;> rfl

theorem journal_book (l : Ledger) (store : Store) (ev : Event) (r : Record) :
    (l.book store ev r).journal = l.journal ++ [.stored store.records] ++ [.told ev r] := by
  cases ev <;> rfl

theorem counted_book (l : Ledger) (store : Store) (ev ev' : Event) (r : Record) :
    (l.book store ev r).counted ev' = l.counted ev' + if ev = ev' then 1 else 0 := by
  cases ev <;> cases ev' <;> rfl

theorem drawn_book (l : Ledger) (store : Store) (ev : Event) (r : Record) :
    (l.book store ev r).drawn = l.drawn := by
  cases ev <;> rfl

/-! ## Steps -/

/-- A step that announces nothing keeps the account, if what is stored shows the same endings. -/
theorem Accounted.quiet (h : l.Accounted source) {store : Store}
    (hstored : ∀ id r, store.read id = some r →
      ∃ r₀, l.store.read id = some r₀ ∧ r₀.ending = r.ending) :
    (l.keep store).Accounted source := by
  refine ⟨?_, ?_, ?_, ?_, ?_, ?_⟩
  · intro id r hr
    obtain ⟨r₀, hr₀, hending⟩ := hstored id r hr
    rw [noticesOf_keep, h.stored id r₀ hr₀, hending]
  · intro s hs id hid
    rw [noticesOf_keep]
    rw [contents_keep] at hs
    rcases List.mem_append.1 hs with hold | hnew
    · exact h.begun s hold id hid
    · rw [List.mem_singleton.1 hnew] at hid
      obtain ⟨r, hr⟩ := Option.isSome_iff_exists.1 hid
      obtain ⟨r₀, hr₀, _⟩ := hstored id r hr
      rw [h.stored id r₀ hr₀]
      exact List.cons_ne_nil _ _
  · intro id hid
    rw [noticesOf_keep] at hid
    exact h.drawn id hid
  · intro id
    rw [noticesOf_keep]
    exact h.lives id
  · intro ev
    rw [counted_keep, h.counted ev]
    simp [keep, Engine.Entry.tells]
  · intro before ev r hbefore
    rcases List.prefix_concat_iff.1 hbefore with heq | hold
    · have hlast := List.append_inj_right' heq rfl
      cases hlast
    · exact h.told before ev r hold

/-- A step that announces an event keeps the account, if the event fits what is stored. -/
theorem Accounted.announce (h : l.Accounted source) (hlawful : l.Lawful) {store : Store}
    {ev : Event} {r : Record} (hr : store.read r.id = some r)
    (hmarks : ev.Marks (l.store.read r.id) r)
    (hnotices : Engine.noticesOf l.journal r.id ++ [ev] = .start :: r.ending)
    (hothers : ∀ id x, id ≠ r.id → store.read id = some x → l.store.read id = some x)
    (hdrawn : ∃ i, i < l.drawn ∧ Id.ofWords (source i) = r.id) :
    (l.book store ev r).Accounted source := by
  have hself : Engine.noticesOf (l.book store ev r).journal r.id = .start :: r.ending := by
    rw [noticesOf_book, if_pos rfl, hnotices]
  have hother : ∀ id, id ≠ r.id →
      Engine.noticesOf (l.book store ev r).journal id = Engine.noticesOf l.journal id := by
    intro id hid
    rw [noticesOf_book, if_neg (Ne.symm hid), List.append_nil]
  have hstored : ∀ id x, store.read id = some x →
      Engine.noticesOf (l.book store ev r).journal id = .start :: x.ending := by
    intro id x hx
    by_cases hid : id = r.id
    · rw [hid, hr, Option.some.injEq] at hx
      rw [hid, hself, hx]
    · rw [hother id hid, h.stored id x (hothers id x hid hx)]
  refine ⟨?_, ?_, ?_, ?_, ?_, ?_⟩
  · intro id x hx
    rw [store_book] at hx
    exact hstored id x hx
  · intro s hs id hid
    rw [contents_book] at hs
    rcases List.mem_append.1 hs with hold | hnew
    · rw [noticesOf_book]
      exact List.append_ne_nil_of_left_ne_nil (h.begun s hold id hid) _
    · rw [List.mem_singleton.1 hnew] at hid
      obtain ⟨x, hx⟩ := Option.isSome_iff_exists.1 hid
      rw [hstored id x hx]
      exact List.cons_ne_nil _ _
  · intro id hid
    rw [drawn_book]
    by_cases hsame : id = r.id
    · rw [hsame]
      exact hdrawn
    · rw [hother id hsame] at hid
      exact h.drawn id hid
  · intro id
    by_cases hsame : id = r.id
    · rw [hsame, hself]
      exact Event.lives_ending r
    · rw [hother id hsame]
      exact h.lives id
  · intro ev'
    rw [counted_book, h.counted, journal_book]
    by_cases hev : ev = ev' <;> simp [Engine.Entry.tells, hev]
  · intro before ev' r' hbefore
    rw [journal_book] at hbefore
    -- the announcement stands last, right behind the content that was stored for it
    rcases List.prefix_concat_iff.1 hbefore with heq | hold
    · obtain ⟨rfl, hlast⟩ := List.append_inj' heq rfl
      cases hlast
      exact ⟨l.journal, l.store.records, store.records, rfl, hlawful.last, hr, hmarks⟩
    · rcases List.prefix_concat_iff.1 hold with heq | hold
      · have hlast := List.append_inj_right' heq rfl
        cases hlast
      · exact h.told before ev' r' hold

theorem Accounted.close (h : l.Accounted source) (hlawful : l.Lawful) {store : Store}
    {ev : Event} {r r' : Record} (hread : l.store.read r.id = some r)
    (hlive : r.isTerminal = false) (hid : r'.id = r.id) (hupdate : l.store.update r' = .ok store)
    (hending : r'.ending = [ev]) (hmarks : ev.Marks (some r) r') :
    (l.book store ev r').Accounted source := by
  -- the record was live until now, so no end was announced
  have hnotices : Engine.noticesOf l.journal r.id = [.start] := by
    rw [h.stored r.id r hread, Record.ending_of_live hlive]
  have hread' : l.store.read r'.id = some r := by rw [hid, hread]
  refine h.announce hlawful ?_ (by rwa [hread']) ?_ ?_ ?_
  · rw [Store.read_update hupdate, if_pos rfl]
  · rw [hid, hnotices, hending]
    rfl
  · intro id x hne hx
    rw [Store.read_update hupdate, if_neg hne] at hx
    exact hx
  · rw [hid]
    exact h.drawn r.id (by simp [hnotices])

/-- An id that was drawn just now has nothing announced about it, if no id is drawn twice. -/
theorem Accounted.notices_of_fresh (h : l.Accounted source)
    (hfresh : ∀ i, i < l.drawn → Id.ofWords (source i) ≠ Id.ofWords (source l.drawn)) :
    Engine.noticesOf l.journal (Id.ofWords (source l.drawn)) = [] := by
  by_contra hne
  obtain ⟨i, hi, heq⟩ := h.drawn _ hne
  exact hfresh i hi heq

theorem Accounted.draw (h : l.Accounted source) : l.draw.Accounted source where
  stored := h.stored
  begun := h.begun
  drawn id hid := by
    obtain ⟨i, hi, heq⟩ := h.drawn id hid
    exact ⟨i, Nat.lt_succ_of_lt hi, heq⟩
  lives := h.lives
  counted ev := by
    have hcounted : l.draw.counted ev = l.counted ev := by cases ev <;> rfl
    rw [hcounted]
    exact h.counted ev
  told := h.told

theorem Accounted.frame (h : l.Accounted source) (hrecords : l'.store.records = l.store.records)
    (hjournal : l'.journal = l.journal) (hdrawn : l'.drawn = l.drawn)
    (hcounted : ∀ ev, l'.counted ev = l.counted ev) : l'.Accounted source := by
  refine ⟨?_, ?_, ?_, ?_, ?_, ?_⟩
  · intro id r hr
    rw [Store.read, hrecords] at hr
    rw [hjournal]
    exact h.stored id r hr
  · rw [contents, hjournal]
    exact h.begun
  · rw [hjournal, hdrawn]
    exact h.drawn
  · rw [hjournal]
    exact h.lives
  · intro ev
    rw [hcounted, hjournal]
    exact h.counted ev
  · rw [hjournal]
    exact h.told

/-- Every step of the books preserves the account, if the id that is drawn is a new one. -/
theorem Accounted.step (h : l.Accounted source) (hlawful : l.Lawful)
    (hfresh : l.drawn < l'.drawn →
      ∀ i, i < l.drawn → Id.ofWords (source i) ≠ Id.ofWords (source l.drawn))
    (hstep : Step source p l l') : l'.Accounted source := by
  cases hstep with
  | draw => exact h.draw
  | @start host now limit store lines hcheck hcreate =>
    obtain ⟨hnew, hread, hothers⟩ := Store.read_create hcreate
    rw [drawn_book] at hfresh
    have hnone := h.notices_of_fresh (hfresh (Nat.lt_succ_self _))
    have hlawful' : l.draw.Lawful := ⟨hlawful.sound, hlawful.chain, hlawful.last⟩
    refine h.draw.announce hlawful' hread ⟨hnew, rfl⟩ ?_ ?_ ⟨l.drawn, Nat.lt_succ_self _, rfl⟩
    · change Engine.noticesOf l.journal (Id.ofWords (source l.drawn)) ++ [.start] = _
      rw [hnone]
      rfl
    · intro id x hid hx
      rcases hothers id hid with hsame | ⟨_, hgone, _⟩
      · rw [hsame] at hx
        exact hx
      · rw [hgone] at hx
        cases hx
  | @change r r' store hread hamends hupdate =>
    refine h.quiet fun id x hx => ?_
    rw [Store.read_update hupdate] at hx
    split at hx
    · rename_i hid
      cases hx
      refine ⟨r, by rw [hid, hamends.id, hread], ?_⟩
      rw [Record.ending_of_live hamends.live, Record.ending_of_live hamends.live']
    · exact ⟨x, hx, rfl⟩
  | @stop r r' now store hread hstop hupdate =>
    obtain ⟨hlive, rfl⟩ := Record.stop_eq_ok_iff.1 hstop
    have hexpired : r.expired = false := (Record.isTerminal_eq_false_iff.1 hlive).2
    exact h.close hlawful hread hlive rfl hupdate rfl ⟨⟨r, rfl, hlive⟩, rfl, hexpired⟩
  | @expire r now store hread hnow hupdate =>
    have hlive := Record.isTerminal_of_validity (Or.inr hnow)
    have hstopped : r.marked.isStopped = false := by
      simp [Record.isStopped, Record.marked, (Record.isTerminal_eq_false_iff.1 hlive).1]
    have hexpired : r.marked.expired = true := rfl
    have hending : r.marked.ending = [.expiration] := by simp [Record.ending, hstopped, hexpired]
    exact h.close hlawful hread hlive rfl hupdate hending ⟨⟨r, rfl, hlive⟩, hstopped, hexpired⟩
  | drop ref id _ =>
    refine h.quiet fun id' x hx => ⟨x, ?_, rfl⟩
    rw [Store.read_remove] at hx
    split at hx
    · cases hx
    · exact hx
  | purge _ =>
    refine h.quiet fun id x hx => ⟨x, ?_, rfl⟩
    rw [Store.read_purge, Option.filter_eq_some_iff] at hx
    exact hx.1
  | limit _ => exact h.frame rfl rfl rfl fun ev => by cases ev <;> rfl
  | rule _ _ _ => exact h.frame rfl rfl rfl fun ev => by cases ev <;> rfl

theorem Step.drawn_le (h : Step source p l l') : l.drawn ≤ l'.drawn := by
  cases h with
  | draw => exact Nat.le_succ _
  | start _ _ => exact Nat.le_succ _
  | _ => exact Nat.le_refl _

theorem Path.accounted (hpath : Path source p l l') (h : l.Accounted source) (hlawful : l.Lawful)
    (hfresh : ∀ i j, i < j → j < l'.drawn → Id.ofWords (source i) ≠ Id.ofWords (source j)) :
    l'.Accounted source := by
  induction hpath with
  | refl => exact h
  | @tail l₁ l₂ hbegun hstep ih =>
    have hmore := hstep.drawn_le
    have haccounted := ih fun i j hij hj => hfresh i j hij (Nat.lt_of_lt_of_le hj hmore)
    refine haccounted.step (hlawful.path hbegun) (fun hlt i hi => ?_) hstep
    exact hfresh i l₁.drawn hi hlt

theorem accounted_opening (policy : StorePolicy) (admission : Admission) :
    (Engine.opening (Store.new policy) admission).Accounted source where
  stored id r hr := by
    rw [Engine.opening, Store.read_new] at hr
    cases hr
  begun s hs id hid := by
    rw [List.mem_singleton.1 hs] at hid
    cases hid
  drawn id hid := absurd rfl hid
  lives _ := .inl rfl
  counted ev := by cases ev <;> rfl
  told before ev r hbefore := by
    have hlength := hbefore.length_le
    simp [Engine.opening] at hlength

end Ledger

/-! ## Every run -/

namespace Engine

/-- **Ends are announced once.** In any run of commands that write through the manager, if no id is
drawn twice: about each session its start is announced, and after it at most one end, which is a
stop or an expiration; nothing is announced about other sessions. Every announcement comes right
behind the content that was stored for it, in which the session stands with the record that is
announced: a live one that was not there before, or an ended one that was live before. What was
counted is what was announced. -/
theorem ends_are_announced_once {settings : Settings} {clock : Clock} {source : IdSource}
    {level : Level} {e : Engine} (hnew : Engine.new settings clock source level = .ok e)
    (depth : Nat) {cs : List Command} (hcs : ∀ c ∈ cs, c.Orderly fun _ => True)
    (hfresh : ∀ i j, i < j → j < (after depth cs e).drawn →
      Id.ofWords (source i) ≠ Id.ofWords (source j)) :
    (∀ id, Event.Lives (noticesOf (after depth cs e).journal id)) ∧
    (∀ id, noticesOf (after depth cs e).journal id ≠ [] ↔
      ∃ s ∈ contentsOf (after depth cs e).journal, s.contains id = true) ∧
    (∀ before ev r, before ++ [.told ev r] <+: (after depth cs e).journal →
      Snapshot before ev r) ∧
    (after depth cs e).stats.started = (after depth cs e).journal.countP (·.tells .start) ∧
    (after depth cs e).stats.stopped = (after depth cs e).journal.countP (·.tells .stop) ∧
    (after depth cs e).stats.expired = (after depth cs e).journal.countP (·.tells .expiration) := by
  have haccounted := (path_of_run hnew depth hcs).accounted
    (Ledger.accounted_opening settings.store _) (Ledger.lawful_opening settings.store _) hfresh
  refine ⟨haccounted.lives, fun id => ⟨fun hid => ?_, ?_⟩, haccounted.told,
    haccounted.counted .start, haccounted.counted .stop, haccounted.counted .expiration⟩
  · exact exists_content_of_notice haccounted.told hid
  · rintro ⟨s, hs, hid⟩
    exact haccounted.begun s hs id hid

/-- A listener that goes on with the session that it is told about, and fails in the end. -/
def meddler : Listener Command where
  name := "meddler"
  hears _ := true
  react ev _ :=
    match ev with
    | .start => ⟨[.call .touch (.subject []) ⟨none⟩], none⟩
    | .stop => ⟨[.sweep], some "too late"⟩
    | .expiration => ⟨[.call .stop (.subject []) ⟨none⟩], some "too late"⟩

theorem orderly_meddler : meddler.Orderly fun _ => True := by
  intro ev n
  cases ev <;> exact Command.orderly_of_isPlain rfl

/-- A session expires in a sweep. The listener that is told tries to stop it, by which it is replaced
in the middle of the sweep; the other session is then stopped. -/
theorem ends_are_announced_once_to_meddler :
    ∃ e : Engine, Engine.new {} (.still 7) (fun n => (0, n.toUInt64)) .silent = .ok e ∧
      ∃ e', e' = after 3 [.listen meddler, .start none, .advanceClock 1800001, .sweep,
        .call .stop (.started 2 []) ⟨none⟩] e ∧
      noticesOf e'.journal (Id.ofWords (0, 0)) = [.start, .expiration] ∧
      noticesOf e'.journal (Id.ofWords (0, 1)) = [.start, .stop] ∧
      Event.Lives (noticesOf e'.journal (Id.ofWords (0, 0))) ∧
      e'.stats.started = e'.journal.countP (·.tells .start) ∧ e'.stats.started = 2 := by
  let cs : List Command := [.listen meddler, .start none, .advanceClock 1800001, .sweep,
    .call .stop (.started 2 []) ⟨none⟩]
  have hcs : ∀ c ∈ cs, c.Orderly fun _ => True :=
    List.forall_mem_cons.2 ⟨.listen trivial orderly_meddler, Command.orderly_of_isPlain rfl⟩
  have hrun := @ends_are_announced_once {} (.still 7) (fun n => (0, n.toUInt64)) .silent _ rfl 3 cs
    hcs (by
      intro i j hij hj
      have hdrawn : j < 2 := Nat.lt_of_lt_of_le hj (by decide +kernel)
      obtain rfl : j = 1 := by omega
      obtain rfl : i = 0 := by omega
      decide)
  obtain ⟨hlives, _, _, hstarted, _⟩ := hrun
  refine ⟨_, rfl, after 3 cs _, rfl, ?_⟩
  exact ⟨by decide +kernel, by decide +kernel, hlives (Id.ofWords (0, 0)), hstarted,
    by decide +kernel⟩

end Engine
end Sessions
