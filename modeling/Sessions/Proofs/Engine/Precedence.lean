import Sessions.Proofs.Engine.Commands
import Sessions.Proofs.Engine.Notices
import Sessions.Proofs.Registry.Delivery

/-!
# Sessions.Proofs.Engine.Precedence

In which order a listener is told of the start of a session and of its end, when listeners end sessions
that they are told about.

The journal has the start first, whatever listeners do: nothing ends that is not stored, and what is stored
was announced at once. A listener is told later than the journal, and sessions may end while their start is
still on its way to it; but then the start has come to another one in front of it.

* `Opened journal id`: the start of the session is announced there. `Ledger.Introduced` is the invariant of
  the books, and `begun_of_run` what it says of a journal.
* `Seated front l g`: a listener is registered, behind none but certain others.
* `Attended front l e`: every start has come to one of them, and to one of them before the listener is told
  of an end.
* `Sees front l e e'`: that stays so, and the listener is told of every start that the journal tells in
  between. `sees_announce`: announcements, by what they do until the first one hears them.
* `ends_follow_starts`: every run.
-/

namespace Sessions
namespace Registry

variable {A R : Type} {g : Registry A R}

/-- One more is made, and registered behind all others. -/
def join (g : Registry A R) (x : Listener A) : Registry A R :=
  { (g.introduce x).2 with registered := g.registered ++ [g.ears.length] }

theorem listeners_join (g : Registry A R) (x : Listener A) :
    (g.join x).listeners = g.listeners ++ [x] := List.map_append

theorem listeners_foldl_join (g : Registry A R) (ls : List (Listener A)) :
    (ls.foldl join g).listeners = g.listeners ++ ls := by
  induction ls generalizing g with
  | nil => rw [List.foldl_nil, List.append_nil]
  | cons x ls ih => rw [List.foldl_cons, ih, listeners_join, List.append_assoc, List.singleton_append]

theorem tellings_foldl_join (g : Registry A R) (ls : List (Listener A)) :
    (ls.foldl join g).tellings = g.tellings := by
  induction ls generalizing g with
  | nil => rfl
  | cons x ls ih => exact ih _

/-- Who is registered was made, and they stand in the order in which they were made. -/
structure Ranked (g : Registry A R) : Prop where
  sound : g.Sound
  sorted : g.registered.Pairwise (· < ·)

namespace Ranked

theorem join (h : g.Ranked) (x : Listener A) : (g.join x).Ranked := by
  have hlength : g.listeners.length = g.ears.length := List.length_map _
  refine ⟨fun i hi => ?_, ?_⟩
  · rw [listeners_join, List.length_append]
    rcases List.mem_append.1 hi with hold | hnew
    · exact Nat.lt_succ_of_lt (h.sound i hold)
    · rw [List.mem_singleton.1 hnew, ← hlength]
      exact Nat.lt_succ_self _
  · refine List.pairwise_append.2 ⟨h.sorted, List.pairwise_singleton _ _, fun i hi j hj => ?_⟩
    rw [List.mem_singleton.1 hj, ← hlength]
    exact h.sound i hi

theorem drop (h : g.Ranked) (i : ListenerId) :
    ({ g with registered := g.registered.erase i } : Registry A R).Ranked where
  sound j hj := h.sound j (List.mem_of_mem_erase hj)
  sorted := h.sorted.sublist List.erase_sublist

/-- Who is not among the first has the place behind them, or a later one. -/
theorem le_of_split (h : g.Ranked) {i j : ListenerId} (hj : j ∈ g.registered)
    {skipped rest : List ListenerId} (hsplit : g.registered = skipped ++ i :: rest)
    (hskipped : j ∉ skipped) : i ≤ j ∧ (j ∈ rest ∨ i = j) := by
  have hsorted := h.sorted
  rw [hsplit] at hj hsorted
  rcases List.mem_cons.1 ((List.mem_append.1 hj).resolve_left hskipped) with heq | hrest
  · exact ⟨heq ▸ Nat.le_refl _, .inr heq.symm⟩
  · have hlt := (List.pairwise_cons.1 (List.pairwise_append.1 hsorted).2.1).1 j hrest
    exact ⟨Nat.le_of_lt hlt, .inl hrest⟩

theorem count_eq_one (h : g.Ranked) {i : ListenerId} (hi : i ∈ g.registered) :
    g.registered.count i = 1 :=
  List.count_eq_one_of_mem (h.sorted.imp Nat.ne_of_lt) hi

end Ranked
end Registry

namespace Engine

/-! ## The journal -/

def Opened (journal : List Entry) (id : Id) : Prop := ∃ r, r.id = id ∧ .told .start r ∈ journal

/-- An end is announced of none but sessions whose start was announced before. -/
def StartsFirst (journal : List Entry) : Prop :=
  ∀ before ev r, before ++ [.told ev r] <+: journal → ev ≠ .start → Opened before r.id

variable {journal journal' : List Entry} {id : Id}

theorem Opened.mono (h : Opened journal id) (hlonger : journal <+: journal') : Opened journal' id := by
  obtain ⟨r, hid, hr⟩ := h
  exact ⟨r, hid, hlonger.subset hr⟩

theorem StartsFirst.of_isPrefix (h : StartsFirst journal') (hlonger : journal <+: journal') :
    StartsFirst journal :=
  fun before ev r hbefore => h before ev r (hbefore.trans hlonger)

theorem StartsFirst.opened (h : StartsFirst journal) {ev : Event} {r : Record} (hr : .told ev r ∈ journal)
    (hev : ev ≠ .start) : Opened journal r.id := by
  obtain ⟨before, behind, rfl⟩ := List.append_of_mem hr
  have hbefore : before ++ [.told ev r] <+: before ++ .told ev r :: behind := ⟨behind, by simp⟩
  exact (h before ev r hbefore hev).mono (List.prefix_append _ _)

end Engine

namespace Ledger

open Engine (Opened StartsFirst)

/-- Of every session that is stored, and of every one that ended, the start was announced. -/
structure Introduced (l : Ledger) : Prop where
  stored : ∀ id r, l.store.read id = some r → Opened l.journal id
  begun : StartsFirst l.journal

namespace Introduced

variable {l l' : Ledger} {source : IdSource} {p : Engine.Command → Prop}

theorem keep (h : l.Introduced) {store : Store}
    (hstored : ∀ id r, store.read id = some r → ∃ r₀, l.store.read id = some r₀) :
    (l.keep store).Introduced where
  stored id r hr := by
    obtain ⟨r₀, hr₀⟩ := hstored id r hr
    exact (h.stored id r₀ hr₀).mono (List.prefix_append _ _)
  begun before ev r hbefore hev := by
    rcases List.prefix_concat_iff.1 hbefore with heq | hold
    · cases List.append_inj_right' heq rfl
    · exact h.begun before ev r hold hev

/-- A session is announced: that it starts, or something about one whose start was announced. -/
theorem book (h : l.Introduced) {store : Store} {ev : Event} {r : Record}
    (hstored : ∀ id x, store.read id = some x → id = r.id ∨ ∃ x₀, l.store.read id = some x₀)
    (hev : ev = .start ∨ Opened l.journal r.id) : (l.book store ev r).Introduced where
  stored id x hx := by
    rw [store_book] at hx
    rw [journal_book, List.append_assoc]
    rcases hstored id x hx with rfl | ⟨x₀, hx₀⟩
    · rcases hev with rfl | hopened
      · exact ⟨r, rfl, by simp⟩
      · exact hopened.mono (List.prefix_append _ _)
    · exact (h.stored id x₀ hx₀).mono (List.prefix_append _ _)
  begun before ev' r' hbefore hev' := by
    rw [journal_book] at hbefore
    rcases List.prefix_concat_iff.1 hbefore with heq | hold
    · obtain ⟨rfl, hlast⟩ := List.append_inj' heq rfl
      cases hlast
      exact (hev.resolve_left hev').mono (List.prefix_append _ _)
    · rcases List.prefix_concat_iff.1 hold with heq | hold
      · cases List.append_inj_right' heq rfl
      · exact h.begun before ev' r' hold hev'

/-- A session ends that is stored. -/
theorem close (h : l.Introduced) {store : Store} {ev : Event} {r r' : Record}
    (hread : l.store.read r.id = some r) (hid : r'.id = r.id) (hupdate : l.store.update r' = .ok store) :
    (l.book store ev r').Introduced := by
  refine h.book (fun id x hx => ?_) (.inr (hid ▸ h.stored r.id r hread))
  rw [Store.read_update hupdate] at hx
  split at hx
  · exact .inl ‹_›
  · exact .inr ⟨x, hx⟩

theorem step (h : l.Introduced) (hstep : Step source p l l') : l'.Introduced := by
  cases hstep with
  | draw => exact ⟨h.stored, h.begun⟩
  | @start host now limit store lines hcheck hcreate =>
    obtain ⟨-, -, hothers⟩ := Store.read_create hcreate
    have hdrawn : l.draw.Introduced := ⟨h.stored, h.begun⟩
    refine hdrawn.book (fun id x hx => ?_) (.inl rfl)
    by_cases hid : id = Id.ofWords (source l.drawn)
    · exact .inl hid
    · rcases hothers id hid with hsame | ⟨_, hgone, _⟩
      · exact .inr ⟨x, hsame ▸ hx⟩
      · rw [hgone] at hx
        cases hx
  | @change r r' store hread hamends hupdate =>
    refine h.keep fun id x hx => ?_
    rw [Store.read_update hupdate] at hx
    split at hx
    · rename_i hid
      exact ⟨r, by rw [hid, hamends.id, hread]⟩
    · exact ⟨x, hx⟩
  | @stop r r' now store hread hstop hupdate =>
    obtain ⟨-, rfl⟩ := Record.stop_eq_ok_iff.1 hstop
    exact h.close hread rfl hupdate
  | @expire r now store hread hnow hupdate => exact h.close hread rfl hupdate
  | drop ref id _ =>
    refine h.keep fun id' x hx => ⟨x, ?_⟩
    rw [Store.read_remove] at hx
    split at hx
    · cases hx
    · exact hx
  | purge _ =>
    refine h.keep fun id x hx => ⟨x, ?_⟩
    rw [Store.read_purge, Option.filter_eq_some_iff] at hx
    exact hx.1
  | limit _ => exact ⟨h.stored, h.begun⟩
  | rule _ _ _ => exact ⟨h.stored, h.begun⟩

theorem path (h : l.Introduced) (hpath : Path source p l l') : l'.Introduced := by
  induction hpath with
  | refl => exact h
  | tail _ hstep ih => exact ih.step hstep

end Introduced

theorem introduced_opening (policy : StorePolicy) (admission : Admission) :
    (Engine.opening (Store.new policy) admission).Introduced where
  stored id r hr := by
    rw [Engine.opening, Store.read_new] at hr
    cases hr
  begun before ev r hbefore := by
    have hlength := hbefore.length_le
    simp [Engine.opening] at hlength

end Ledger

namespace Engine

theorem begun_of_run {settings : Settings} {clock : Clock} {source : IdSource} {level : Level}
    {e : Engine} (hnew : Engine.new settings clock source level = .ok e) (depth : Nat)
    {cs : List Command} (hcs : ∀ c ∈ cs, c.Orderly fun _ => True) :
    StartsFirst (after depth cs e).journal :=
  ((Ledger.introduced_opening settings.store _).path (path_of_run hnew depth hcs)).begun

/-! ## The listener and those in front of it -/

/-- The command drops no listener of that name. -/
def Command.Spares (name : Text) (c : Command) : Prop := c ≠ .unlisten name

variable {front : List (Listener Command)} {l x : Listener Command} {i : ListenerId}
  {g g' : Registry Command Reply} {act : Act} {e e' e'' : Engine} {ev : Event} {r : Record}

/-- The listener is registered, and in front of it only some of those that were made before it. -/
structure Seated (front : List (Listener Command)) (l : Listener Command)
    (g : Registry Command Reply) : Prop where
  made : front ++ [l] <+: g.listeners
  ranked : g.Ranked
  seat : front.length ∈ g.registered

namespace Seated

theorem frame (h : Seated front l g) (hlisteners : g'.listeners = g.listeners)
    (hregistered : g'.registered = g.registered) : Seated front l g' where
  made := hlisteners ▸ h.made
  ranked := by
    refine ⟨?_, hregistered ▸ h.ranked.sorted⟩
    rw [Registry.Sound, hregistered, hlisteners]
    exact h.ranked.sound
  seat := hregistered ▸ h.seat

theorem listener (h : Seated front l g) : g.listeners[front.length]? = some l := by
  obtain ⟨rest, hrest⟩ := h.made
  rw [← hrest, List.append_assoc, List.getElem?_append_right (Nat.le_refl _), Nat.sub_self]
  rfl

theorem mem_of_le (h : Seated front l g) (hi : i ≤ front.length) (hx : g.listeners[i]? = some x) :
    x ∈ front ++ [l] := by
  obtain ⟨rest, hrest⟩ := h.made
  have hlength : i < (front ++ [l]).length := by
    rw [List.length_append]
    exact Nat.lt_succ_of_le hi
  rw [← hrest, List.getElem?_append_left hlength] at hx
  exact List.mem_of_getElem? hx

/-- The first one registered that hears an event stands at the place of the listener or in front of it, if
the listener hears it. -/
theorem exists_first (h : Seated front l g) (hhears : l.hears ev = true) :
    ∃ skipped i rest ear, g.registered = skipped ++ i :: rest ∧
      (∀ j ∈ skipped, ∀ ear', g.ears[j]? = some ear' → ear'.listener.hears ev = false) ∧
      g.ears[i]? = some ear ∧ ear.listener.hears ev = true ∧ ear.listener ∈ front ++ [l] ∧
      (front.length ∈ rest ∨ ear.listener = l) := by
  let hears : ListenerId → Bool := fun i => g.listeners[i]?.any (·.hears ev)
  have hseat : hears front.length = true := by
    simp only [hears, h.listener, Option.any_some, hhears]
  cases hfirst : g.registered.find? hears with
  | none => exact absurd hseat (List.find?_eq_none.1 hfirst _ h.seat)
  | some i =>
    obtain ⟨hi, skipped, rest, hsplit, hskipped⟩ := List.find?_eq_some_iff_append.1 hfirst
    obtain ⟨x, hx, hxhears⟩ : ∃ x, g.listeners[i]? = some x ∧ x.hears ev = true :=
      (Option.any_eq_true _ _).1 hi
    obtain ⟨ear, hear, rfl⟩ := Registry.exists_ear hx
    have hplace := h.ranked.le_of_split h.seat hsplit fun hmem => by
      have hdeaf := hskipped _ hmem
      rw [hseat] at hdeaf
      cases hdeaf
    refine ⟨skipped, i, rest, ear, hsplit, fun j hj ear' hear' => ?_, hear, hxhears,
      h.mem_of_le hplace.1 hx, hplace.2.imp_right ?_⟩
    · have hdeaf := hskipped j hj
      simp only [hears, Registry.listeners_of_ear hear', Option.any_some, Bool.not_eq_true'] at hdeaf
      exact hdeaf
    · rintro rfl
      exact Option.some.inj (hx.symm.trans h.listener)

theorem join (h : Seated front l g) (x : Listener Command) : Seated front l (g.join x) where
  made := by
    rw [Registry.listeners_join]
    exact h.made.trans (List.prefix_append _ _)
  ranked := h.ranked.join x
  seat := List.mem_append_left _ h.seat

/-- Another one is dropped. -/
theorem drop (h : Seated front l g) (hi : i ≠ front.length) :
    Seated front l { g with registered := g.registered.erase i } where
  made := h.made
  ranked := h.ranked.drop i
  seat := (List.mem_erase_of_ne hi.symm).2 h.seat

theorem foldl_join (h : Seated front l g) (ls : List (Listener Command)) :
    Seated front l (ls.foldl Registry.join g) := by
  induction ls generalizing g with
  | nil => exact h
  | cons x ls ih => exact ih (h.join x)

/-- Among listeners that are made one behind the other, each stands behind those in front of it. -/
theorem of_new (front : List (Listener Command)) (l : Listener Command)
    (back : List (Listener Command)) :
    Seated front l ((front ++ l :: back).foldl Registry.join .empty) := by
  have hmade := Registry.listeners_foldl_join (.empty : Registry Command Reply) front
  have hranked : (front.foldl Registry.join (.empty : Registry Command Reply)).Ranked := by
    refine List.foldlRecOn front _ ⟨nofun, .nil⟩ fun g h x _ => h.join x
  rw [List.foldl_append, List.foldl_cons]
  generalize front.foldl Registry.join (.empty : Registry Command Reply) = g at hmade hranked ⊢
  have hfront : g.listeners = front := hmade
  have hseated : Seated front l (g.join l) :=
    { made := (g.listeners_join l ▸ hfront ▸ List.prefix_rfl)
      ranked := hranked.join l
      seat := by
        have hlength : g.ears.length = front.length := by
          rw [← hfront, Registry.listeners, List.length_map]
        exact hlength ▸ List.mem_append_right _ List.mem_cons_self }
  exact hseated.foldl_join back

theorem ne_of_named? (h : Seated front l g) {name : Text} (hname : name ≠ l.name)
    (hi : g.named? name = some i) : i ≠ front.length := by
  rintro rfl
  have hnamed := List.find?_some hi
  obtain ⟨ear, hear, hlistener⟩ := Registry.exists_ear h.listener
  simp only [hear, hlistener, Option.map_some, beq_iff_eq, Option.some.injEq] at hnamed
  exact hname hnamed.symm

end Seated

/-! ## Starts that have come to somebody -/

/-- The listener was told of the start of a session, or one in front of it was. -/
def Arrived (front : List (Listener Command)) (l : Listener Command)
    (tellings : List (Text × Event × Record)) (r : Record) : Prop :=
  ∃ x ∈ front ++ [l], x.hears .start = true ∧ (x.name, .start, r) ∈ tellings

theorem Arrived.mono {ts ts' : List (Text × Event × Record)} (h : Arrived front l ts r)
    (hlonger : ts <+: ts') : Arrived front l ts' r := by
  obtain ⟨x, hx, hhears, htold⟩ := h
  exact ⟨x, hx, hhears, hlonger.subset htold⟩

/-- Every start that was announced has come to somebody, and so had that of a session by whose end the
listener was told of it. -/
structure Attended (front : List (Listener Command)) (l : Listener Command) (e : Engine) : Prop where
  seated : Seated front l e.registry
  arrived : ∀ r, .told .start r ∈ e.journal → Arrived front l e.registry.tellings r
  ordered : ∀ before ev r, before ++ [(l.name, ev, r)] <+: e.registry.tellings → ev ≠ .start →
    ∃ r₀, r₀.id = r.id ∧ .told .start r₀ ∈ e.journal ∧ Arrived front l before r₀

/-- All is attended to, and the listener was told of the starts that were announced in between. -/
structure Onward (front : List (Listener Command)) (l : Listener Command) (e e' : Engine) : Prop where
  attended : Attended front l e'
  tellings : e.registry.tellings <+: e'.registry.tellings
  starts : ∀ r, .told .start r ∈ e'.journal →
    .told .start r ∈ e.journal ∨ (l.name, .start, r) ∈ e'.registry.tellings

theorem Onward.trans (h : Onward front l e e') (h' : Onward front l e' e'') : Onward front l e e'' where
  attended := h'.attended
  tellings := h.tellings.trans h'.tellings
  starts r hr := by
    rcases h'.starts r hr with hr | htold
    · rcases h.starts r hr with hr | htold
      · exact .inl hr
      · exact .inr (h'.tellings.subset htold)
    · exact .inr htold

/-- An engine whose listeners drop neither the one in question nor others of its name goes onward, if the
starts stand in front of the ends in the journal that it comes to. -/
def Sees (front : List (Listener Command)) (l : Listener Command) (e e' : Engine) : Prop :=
  e.Regular (Command.Spares l.name) → e'.Regular (Command.Spares l.name) ∧ e.journal <+: e'.journal ∧
    (StartsFirst e'.journal → Attended front l e → Onward front l e e')

namespace Sees

theorem of_regular (h : e.Regular (Command.Spares l.name) → Sees front l e e') : Sees front l e e' :=
  fun hreg => h hreg hreg

theorem trans (h : Sees front l e e') (h' : Sees front l e' e'') : Sees front l e e'' := by
  intro hreg
  obtain ⟨hreg', hgrown, honward⟩ := h hreg
  obtain ⟨hreg'', hgrown', honward'⟩ := h' hreg'
  refine ⟨hreg'', hgrown.trans hgrown', fun hbegun hattended => ?_⟩
  have hfirst := honward (hbegun.of_isPrefix hgrown') hattended
  exact hfirst.trans (honward' hbegun hfirst.attended)

/-- Nobody is told anything, and no start is announced. -/
theorem quiet (hreg : e.Regular (Command.Spares l.name) → e'.Regular (Command.Spares l.name))
    (hseated : Seated front l e.registry → Seated front l e'.registry)
    (htellings : e'.registry.tellings = e.registry.tellings) {added : List Entry}
    (hjournal : e'.journal = e.journal ++ added) (hadded : ∀ r, .told .start r ∉ added) :
    Sees front l e e' := by
  have hgrown : e.journal <+: e'.journal := ⟨added, hjournal.symm⟩
  have hstarts : ∀ r, .told .start r ∈ e'.journal → .told .start r ∈ e.journal := by
    intro r hr
    rw [hjournal] at hr
    exact (List.mem_append.1 hr).resolve_right (hadded r)
  intro h
  refine ⟨hreg h, hgrown, fun _ hattended => ⟨⟨hseated hattended.seated, ?_, ?_⟩, ?_, ?_⟩⟩
  · intro r hr
    rw [htellings]
    exact hattended.arrived r (hstarts r hr)
  · intro before ev r hbefore hev
    rw [htellings] at hbefore
    obtain ⟨r₀, hid, hr₀, harrived⟩ := hattended.ordered before ev r hbefore hev
    exact ⟨r₀, hid, hgrown.subset hr₀, harrived⟩
  · exact htellings ▸ List.prefix_rfl
  · exact fun r hr => .inl (hstarts r hr)

/-- What changes neither the listeners nor what they were told, and announces no start. -/
theorem books (hhooks : e'.disturbance.hooks = e.disturbance.hooks)
    (hears : e'.registry.ears = e.registry.ears)
    (hregistered : e'.registry.registered = e.registry.registered)
    (htellings : e'.registry.tellings = e.registry.tellings) {added : List Entry}
    (hjournal : e'.journal = e.journal ++ added) (hadded : ∀ r, .told .start r ∉ added) :
    Sees front l e e' := by
  refine quiet (fun h => ⟨hhooks.trans h.undisturbed, hears ▸ h.ears⟩) (fun h => ?_) htellings hjournal
    hadded
  exact h.frame (by rw [Registry.listeners, hears, Registry.listeners]) hregistered

theorem stored {contents : List Roster} (hjournal : e'.journal = e.journal ++ contents.map .stored)
    (hregistry : e'.registry = e.registry) (hhooks : e'.disturbance.hooks = e.disturbance.hooks) :
    Sees front l e e' :=
  books hhooks (by rw [hregistry]) (by rw [hregistry]) (by rw [hregistry]) hjournal (by simp)

theorem frame (hjournal : e'.journal = e.journal) (hregistry : e'.registry = e.registry)
    (hhooks : e'.disturbance.hooks = e.disturbance.hooks) : Sees front l e e' := by
  have hnothing : e'.journal = e.journal ++ ([] : List Roster).map .stored :=
    hjournal.trans (List.append_nil _).symm
  exact stored hnothing hregistry hhooks

theorem refl (e : Engine) : Sees front l e e := frame rfl rfl rfl

end Sees

/-! ## Announcements -/

theorem stage_acts (hact : ∀ c e, c.Orderly (Command.Spares l.name) → Sees front l e (act c e).2) :
    (stage act).Acts (·.Orderly (Command.Spares l.name)) (Sees front l) where
  refl := .refl
  trans := .trans
  act r delivery c e hc := by
    have hsubject : Sees front l e { e with subject := some r.id } := .frame rfl rfl rfl
    refine (hsubject.trans (hact c _ hc)).trans ?_
    exact .books rfl rfl rfl (Registry.tellings_noteOutcome _ _ _) (List.append_nil _).symm
      (fun _ => List.not_mem_nil)
  note _ _ _ := .frame rfl rfl rfl

theorem tellings_heard (act : Act) (ev : Event) (r : Record) (i : ListenerId) (name : Text) (e : Engine) :
    ((stage act).heard ev r i name e).registry.tellings = e.registry.tellings ++ [(name, ev, r)] :=
  List.map_append

/-- Somebody is told: of a start, or of an end whose start has come to somebody. -/
theorem Attended.heard (act : Act) (h : Attended front l e) (i : ListenerId) (name : Text)
    (hopened : ev ≠ .start → Opened e.journal r.id) :
    Attended front l ((stage act).heard ev r i name e) where
  seated := h.seated.frame (Registry.listeners_hear _ _ _) rfl
  arrived r' hr' := by
    rw [tellings_heard]
    exact (h.arrived r' hr').mono (List.prefix_append _ _)
  ordered before ev' r' hbefore hev' := by
    rw [tellings_heard] at hbefore
    rcases List.prefix_concat_iff.1 hbefore with heq | hold
    · obtain ⟨rfl, hlast⟩ := List.append_inj' heq rfl
      simp only [List.cons.injEq, Prod.mk.injEq, and_true] at hlast
      obtain ⟨-, rfl, rfl⟩ := hlast
      obtain ⟨r₀, hid, hr₀⟩ := hopened hev'
      exact ⟨r₀, hid, hr₀, h.arrived r₀ hr₀⟩
    · exact h.ordered before ev' r' hold hev'

/-- Nothing happens until the first listener hears of a start, and then it has come to somebody. -/
theorem Attended.launch (act : Act) (h : Attended front l e) (hx : x ∈ front ++ [l])
    (hhears : x.hears .start = true) (r : Record) (i : ListenerId) :
    Attended front l ((stage act).heard .start r i x.name (e.enter (.told .start r))) where
  seated := h.seated.frame (Registry.listeners_hear _ _ _) rfl
  arrived r' hr' := by
    rw [tellings_heard]
    rcases List.mem_append.1 hr' with hold | hnew
    · exact (h.arrived r' hold).mono (List.prefix_append _ _)
    · cases List.mem_singleton.1 hnew
      exact ⟨x, hx, hhears, List.mem_append_right _ List.mem_cons_self⟩
  ordered before ev r' hbefore hev := by
    rw [tellings_heard] at hbefore
    rcases List.prefix_concat_iff.1 hbefore with heq | hold
    · have hlast := List.append_inj_right' heq rfl
      simp only [List.cons.injEq, Prod.mk.injEq, and_true] at hlast
      exact absurd hlast.2.1 hev
    · obtain ⟨r₀, hid, hr₀, harrived⟩ := h.ordered before ev r' hold hev
      exact ⟨r₀, hid, List.mem_append_left _ hr₀, harrived⟩

/-- Once the listener, too, is told of the start, all is attended to. -/
theorem Onward.of_launch {name : Text}
    (h : Onward front l ((stage act).heard .start r i name (e.enter (.told .start r))) e')
    (htold : (l.name, .start, r) ∈ e'.registry.tellings) : Onward front l e e' where
  attended := h.attended
  tellings := by
    have hheard := tellings_heard act .start r i name (e.enter (.told .start r))
    exact (hheard ▸ List.prefix_append _ _).trans h.tellings
  starts r' hr' := by
    rcases h.starts r' hr' with hold | htold'
    · rcases List.mem_append.1 hold with hold | hnew
      · exact .inl hold
      · cases List.mem_singleton.1 hnew
        exact .inr htold
    · exact .inr htold'

theorem sees_heard (act : Act) (hentry : .told ev r ∈ e.journal) (i : ListenerId) (name : Text) :
    Sees front l e ((stage act).heard ev r i name e) := by
  intro hreg
  refine ⟨(leads_hear e i ev name r).regular hreg, List.prefix_rfl, fun hbegun hattended => ?_⟩
  exact
    { attended := hattended.heard act i name fun hev => hbegun.opened hentry hev
      tellings := tellings_heard act ev r i name e ▸ List.prefix_append _ _
      starts := fun _ hr => .inl hr }

section

variable (hact : ∀ c e, c.Orderly (Command.Spares l.name) → Sees front l e (act c e).2)
include hact

/-- A listener that is told goes on from where it has heard the event. -/
theorem sees_acted (hreg : e.Regular (Command.Spares l.name)) {ear : Ear Command}
    (hear : e.registry.ears[i]? = some ear) (hhears : ear.listener.hears ev = true) (r : Record) :
    Sees front l ((stage act).heard ev r i ear.listener.name e) ((stage act).tell ev r i e) :=
  (stage_acts hact).tell hreg.ears hear hhears r

theorem sees_tell (i : ListenerId) (hentry : .told ev r ∈ e.journal) :
    Sees front l e ((stage act).tell ev r i e) := by
  refine .of_regular fun hreg => ?_
  cases hear : e.registry.ears[i]? with
  | none =>
    rw [Stage.tell_of_deaf (by rintro ear hear'; cases hear.symm.trans hear') r]
    exact .refl e
  | some ear =>
    cases hhears : ear.listener.hears ev with
    | true => exact (sees_heard act hentry i _).trans (sees_acted hact hreg hear hhears r)
    | false =>
      rw [Stage.tell_of_deaf (by rintro ear' hear'; cases hear.symm.trans hear'; exact hhears) r]
      exact .refl e

theorem sees_tellAll (is : List ListenerId) (hentry : .told ev r ∈ e.journal) :
    Sees front l e ((stage act).tellAll ev r is e) := by
  induction is generalizing e with
  | nil => exact .refl e
  | cons i is ih =>
    refine .of_regular fun hreg => ?_
    have hfirst := sees_tell hact i hentry
    exact hfirst.trans (ih ((hfirst hreg).2.1.subset hentry))

theorem told_of_tell (hhears : l.hears ev = true) (hentry : .told ev r ∈ e.journal)
    (hreg : e.Regular (Command.Spares l.name)) (hattended : Attended front l e)
    (hbegun : StartsFirst ((stage act).tell ev r front.length e).journal) :
    (l.name, ev, r) ∈ ((stage act).tell ev r front.length e).registry.tellings := by
  obtain ⟨ear, hear, rfl⟩ := Registry.exists_ear hattended.seated.listener
  have hheard : Sees front ear.listener e _ := sees_heard act hentry front.length ear.listener.name
  obtain ⟨hreg₁, -, honward₁⟩ := hheard hreg
  obtain ⟨-, hgrown₂, honward₂⟩ := sees_acted hact hreg hear hhears r hreg₁
  have hattended₁ := (honward₁ (hbegun.of_isPrefix hgrown₂) hattended).attended
  refine (honward₂ hbegun hattended₁).tellings.subset ?_
  rw [tellings_heard]
  exact List.mem_append_right _ List.mem_cons_self

/-- Who is among those that are told, and hears the event, is told of it. -/
theorem told_of_mem {is : List ListenerId} (hseat : front.length ∈ is) (hhears : l.hears ev = true)
    (hentry : .told ev r ∈ e.journal) (hreg : e.Regular (Command.Spares l.name))
    (hattended : Attended front l e) (hbegun : StartsFirst ((stage act).tellAll ev r is e).journal) :
    (l.name, ev, r) ∈ ((stage act).tellAll ev r is e).registry.tellings := by
  induction is generalizing e with
  | nil => cases hseat
  | cons i is ih =>
    rw [Stage.tellAll] at hbegun ⊢
    obtain ⟨hreg₁, hgrown₁, honward₁⟩ := sees_tell hact i hentry hreg
    have hentry₁ := hgrown₁.subset hentry
    obtain ⟨-, hgrown₂, honward₂⟩ := sees_tellAll hact is hentry₁ hreg₁
    have hbegun₁ := hbegun.of_isPrefix hgrown₂
    have hattended₁ := (honward₁ hbegun₁ hattended).attended
    rcases List.mem_cons.1 hseat with rfl | hrest
    · have htold := told_of_tell hact hhears hentry hreg hattended hbegun₁
      exact (honward₂ hbegun hattended₁).tellings.subset htold
    · exact ih hrest hentry₁ hreg₁ hattended₁ hbegun

theorem sees_announce_start (hhears : l.hears .start = true) (r : Record) (e : Engine) :
    Sees front l e (announce act .start r e) := by
  refine .of_regular fun hreg => ?_
  have hentry : .told .start r ∈ (e.enter (.told .start r)).journal :=
    List.mem_append_right _ List.mem_cons_self
  have hreg₁ : (e.enter (.told .start r)).Regular (Command.Spares l.name) :=
    ⟨hreg.undisturbed, hreg.ears⟩
  obtain ⟨hreg', hgrown, -⟩ :=
    sees_tellAll hact e.registry.registered hentry hreg₁
  refine fun _ => ⟨hreg', (List.prefix_append _ _).trans hgrown, fun hbegun hattended => ?_⟩
  -- those in front of the first one who hears of it are passed over
  obtain ⟨skipped, i, rest, ear, hsplit, hdeaf, hear, hfirst, hfront, hplace⟩ :=
    hattended.seated.exists_first hhears
  have hrun : announce act .start r e = (stage act).tellAll .start r rest
      ((stage act).tell .start r i (e.enter (.told .start r))) := by
    change (stage act).tellAll .start r e.registry.registered (e.enter (.told .start r)) = _
    have hskipped : (stage act).tellAll .start r skipped (e.enter (.told .start r)) = _ :=
      Stage.tellAll_of_deaf hdeaf r
    rw [hsplit, Stage.tellAll_append, hskipped]
    rfl
  rw [hrun] at hbegun ⊢
  have hattended₁ := hattended.launch act hfront hfirst r i
  have hreg₂ := (leads_hear (e.enter (.told .start r)) i .start ear.listener.name r).regular hreg₁
  obtain ⟨hreg₃, hgrown₃, honward₃⟩ := sees_acted hact hreg₁ hear hfirst r hreg₂
  have hentry₃ := hgrown₃.subset hentry
  obtain ⟨-, hgrown₄, honward₄⟩ := sees_tellAll hact rest hentry₃ hreg₃
  have hmiddle := honward₃ (hbegun.of_isPrefix hgrown₄) hattended₁
  have honward := hmiddle.trans (honward₄ hbegun hmiddle.attended)
  refine honward.of_launch ?_
  rcases hplace with hrest | hlistener
  · exact told_of_mem hact hrest hhears hentry₃ hreg₃ hmiddle.attended hbegun
  · refine honward.tellings.subset ?_
    rw [tellings_heard, hlistener]
    exact List.mem_append_right _ List.mem_cons_self

theorem sees_announce (hhears : l.hears .start = true) (ev : Event) (r : Record) (e : Engine) :
    Sees front l e (announce act ev r e) := by
  by_cases hev : ev = .start
  · rw [hev]
    exact sees_announce_start hact hhears r e
  · have hentered : Sees front l e (e.enter (.told ev r)) := by
      refine .books rfl rfl rfl rfl rfl fun r' hr' => ?_
      cases List.mem_singleton.1 hr'
      exact hev rfl
    exact hentered.trans (sees_tellAll hact _ (List.mem_append_right _ List.mem_cons_self))

/-! ## Questions and programs -/

theorem sees_answer (hhears : l.hears .start = true) (q : Manager.Question) (e : Engine) :
    Sees front l e (answer act q e).2 := by
  refine .of_regular fun hreg => ?_
  have hcalm := hreg.undisturbed
  cases q with
  | read id =>
    rw [hcalm.answer_read]
    exact .refl e
  | create r =>
    obtain ⟨store, known, log, contents, heq⟩ := exists_createNow r e
    rw [hcalm.answer_create, heq]
    exact .stored rfl rfl rfl
  | update r =>
    obtain ⟨store, contents, heq⟩ := exists_updateNow r e
    rw [hcalm.answer_update, heq]
    exact .stored rfl rfl rfl
  | live =>
    rw [hcalm.answer_live]
    exact .refl e
  | announce ev r => exact sees_announce hact hhears ev r e
  | _ => exact .frame rfl rfl rfl

theorem carried_sees (hhears : l.hears .start = true) : Carried act (Sees front l) where
  refl := .refl
  trans := .trans
  frame _ := .frame
  program p e := by
    unfold runOp
    induction p generalizing e with
    | done r => exact .refl e
    | ask q next ih => exact (sees_answer hact hhears q e).trans (ih _ _)
  store c e := by
    obtain ⟨store, log, contents, heq⟩ := exists_performStore c e
    rw [heq]
    exact .stored rfl rfl rfl

/-! ## Commands -/

theorem sees_performWith (hhears : l.hears .start = true) {c : Command}
    (hc : c.Orderly (Command.Spares l.name)) (e : Engine) : Sees front l e (performWith act c e).2 := by
  cases hbrings : c.bringsIn with
  | false => exact (carried_sees hact hhears).performWith hbrings e
  | true =>
    cases hc with
    | @listen x _ hx =>
      have hlistens : Leads (Command.Spares l.name) e (performWith act (.listen x) e).2 :=
        leads_listen hx e
      exact .quiet hlistens.regular (fun h => h.join x) rfl (List.append_nil _).symm
        fun _ => List.not_mem_nil
    | plain hplain hspares =>
      cases c with
      | unlisten name =>
        have hname : name ≠ l.name := fun h => hspares (h ▸ rfl)
        unfold performWith
        simp only
        cases hi : e.registry.named? name with
        | none => exact .frame rfl rfl rfl
        | some i =>
          refine .quiet (fun h => ⟨h.undisturbed, h.ears⟩) (fun h => ?_) rfl (List.append_nil _).symm
            fun _ => List.not_mem_nil
          exact h.drop (h.ne_of_named? hname hi)
      | listen | hook => cases hplain
      | _ => cases hbrings

end

theorem sees_perform (hhears : l.hears .start = true) (depth : Nat) {c : Command}
    (hc : c.Orderly (Command.Spares l.name)) (e : Engine) : Sees front l e (perform depth c e).2 := by
  induction depth generalizing c e with
  | zero => exact sees_performWith (fun _ e' _ => .refl e') hhears hc e
  | succ n ih => exact sees_performWith (fun _ e' hc' => ih hc' e') hhears hc e

theorem sees_after (hhears : l.hears .start = true) (depth : Nat) {cs : List Command}
    (hcs : ∀ c ∈ cs, c.Orderly (Command.Spares l.name)) (e : Engine) :
    Sees front l e (after depth cs e) := by
  induction cs generalizing e with
  | nil => exact .refl e
  | cons c cs ih =>
    have hfirst : Sees front l e (perform depth c e).2 :=
      sees_perform hhears depth (hcs c List.mem_cons_self) e
    exact hfirst.trans (ih (fun c' h => hcs c' (List.mem_cons_of_mem c h)) _)

/-! ## Runs -/

theorem after_listens (depth : Nat) (ls : List (Listener Command)) (e : Engine) :
    after depth (ls.map .listen) e = { e with registry := ls.foldl Registry.join e.registry } := by
  induction ls generalizing e with
  | nil => rfl
  | cons x ls ih =>
    have hjoined : (perform depth (.listen x) e).2 = { e with registry := e.registry.join x } := by
      cases depth <;> rfl
    rw [List.map_cons, after, List.foldl_cons, hjoined]
    exact ih _

/-- Listeners are registered with a new engine, and nothing has happened. -/
theorem attended_of_new {settings : Settings} {clock : Clock} {source : IdSource} {level : Level}
    (hnew : Engine.new settings clock source level = .ok e) (depth : Nat)
    (front : List (Listener Command)) (l : Listener Command) (back : List (Listener Command)) :
    Attended front l (after depth ((front ++ l :: back).map .listen) e) ∧
      (after depth ((front ++ l :: back).map .listen) e).journal = [] := by
  have hblank : e.registry = .empty ∧ e.journal = [] := by
    unfold Engine.new at hnew
    cases hcheck : settings.check with
    | error f =>
      rw [hcheck] at hnew
      cases hnew
    | ok u =>
      rw [hcheck] at hnew
      cases hnew
      exact ⟨rfl, rfl⟩
  obtain ⟨hregistry, hjournal⟩ := hblank
  rw [after_listens, hregistry]
  refine ⟨⟨.of_new front l back, fun r hr => ?_, fun before ev r hbefore => ?_⟩, hjournal⟩
  · have hnone : .told .start r ∈ e.journal := hr
    rw [hjournal] at hnone
    cases hnone
  · rw [Registry.tellings_foldl_join] at hbefore
    have hlength := hbefore.length_le
    simp [Registry.tellings, Registry.empty] at hlength

/-- **Ends follow starts.** Let listeners be registered with a new engine, and follow any run of commands
that write through the manager, in which one of the listeners that hear of starts is never dropped; others
may come and go, and all may do what they like when they are told something. Then it stays registered,
once. Before it is told of the end of a session it was told of its start; or else the session ended while
its start was being announced: then one of those who were registered in front of it had been told of the
start before, and it is told of it afterwards. (Tellings go by names, so this is about a listener that has
a name for itself.) -/
theorem ends_follow_starts {settings : Settings} {clock : Clock} {source : IdSource} {level : Level}
    {e : Engine} (hnew : Engine.new settings clock source level = .ok e) (depth : Nat)
    {cs : List Command} {front back : List (Listener Command)} {l : Listener Command}
    (hbegins : (front ++ l :: back).map .listen <+: cs)
    (hcs : ∀ c ∈ cs, c.Orderly (Command.Spares l.name)) (hhears : l.hears .start = true) :
    (after depth cs e).registry.listeners[front.length]? = some l ∧
    (after depth cs e).registry.registered.count front.length = 1 ∧
    ∀ before ev r behind, (after depth cs e).registry.tellings = before ++ (l.name, ev, r) :: behind →
      ev ≠ .start →
      (∃ r₀, r₀.id = r.id ∧ (l.name, .start, r₀) ∈ before) ∨
      ∃ r₀, r₀.id = r.id ∧ (l.name, .start, r₀) ∈ behind ∧
        ∃ x ∈ front, x.hears .start = true ∧ (x.name, .start, r₀) ∈ before := by
  have hbegun := begun_of_run hnew depth fun c hc => (hcs c hc).mono fun _ _ => trivial
  obtain ⟨rest, rfl⟩ := hbegins
  have happend : after depth ((front ++ l :: back).map .listen ++ rest) e =
      after depth rest (after depth ((front ++ l :: back).map .listen) e) := List.foldl_append
  rw [happend] at hbegun ⊢
  obtain ⟨hattended, hjournal⟩ := attended_of_new hnew depth front l back
  have hreg := (after_leads depth (fun c hc => hcs c (List.mem_append_left rest hc)) e).regular
    (regular_of_new hnew).1
  generalize after depth ((front ++ l :: back).map .listen) e = e₁ at hattended hjournal hreg hbegun ⊢
  obtain ⟨-, -, honward⟩ := sees_after hhears depth
    (fun c hc => hcs c (List.mem_append_right _ hc)) e₁ hreg
  obtain ⟨⟨hseated, -, hordered⟩, -, hstarts⟩ := honward hbegun hattended
  refine ⟨hseated.listener, hseated.ranked.count_eq_one hseated.seat, ?_⟩
  intro before ev r behind htellings hev
  obtain ⟨r₀, hid, hr₀, x, hx, hxhears, htold⟩ :=
    hordered before ev r ⟨behind, by rw [htellings, List.append_assoc, List.singleton_append]⟩ hev
  rcases List.mem_append.1 hx with hfront | hself
  · -- all that was announced has come to the listener by now, so it is told later if not before
    have hown := (hstarts r₀ hr₀).resolve_left (by rw [hjournal]; exact List.not_mem_nil)
    rw [htellings] at hown
    rcases List.mem_append.1 hown with hbefore | hown
    · exact .inl ⟨r₀, hid, hbefore⟩
    · rcases List.mem_cons.1 hown with heq | hbehind
      · simp only [Prod.mk.injEq, true_and] at heq
        exact absurd heq.1.symm hev
      · exact .inr ⟨r₀, hid, hbehind, x, hfront, hxhears, htold⟩
  · cases List.mem_singleton.1 hself
    exact .inl ⟨r₀, hid, htold⟩

/-- A listener that stops the first session that it is told of. -/
def quitter : Listener Command where
  name := "quitter"
  hears ev := ev = .start
  react _ n := if n = 0 then ⟨[.call .stop (.subject []) ⟨none⟩], none⟩ else .none

/-- A listener that hears everything and does nothing. -/
def bystander : Listener Command where
  name := "bystander"
  hears _ := true
  react _ _ := .none

theorem orderly_quitter : quitter.Orderly (Command.Spares bystander.name) := by
  intro ev n c hc
  cases n with
  | zero =>
    cases List.mem_singleton.1 hc
    exact .plain rfl nofun
  | succ n => cases hc

theorem orderly_bystander : bystander.Orderly (Command.Spares bystander.name) :=
  fun _ _ _ hc => absurd hc List.not_mem_nil

/-- The first session is stopped while it starts, the second one is left alone until it expires. -/
theorem ends_follow_starts_of_bystander :
    ∃ e : Engine, Engine.new {} (.still 7) (fun n => (0, n.toUInt64)) .silent = .ok e ∧
      ∃ e', e' = after 2 [.listen quitter, .listen bystander, .start none, .start none,
        .advanceClock 1800001, .sweep] e ∧
      e'.registry.tellings.map (fun t => (t.1, t.2.1, t.2.2.id)) =
        ([("quitter", .start, Id.ofWords (0, 0)), ("bystander", .stop, Id.ofWords (0, 0)),
          ("bystander", .start, Id.ofWords (0, 0)), ("quitter", .start, Id.ofWords (0, 1)),
          ("bystander", .start, Id.ofWords (0, 1)), ("bystander", .expiration, Id.ofWords (0, 1))] :
          List (Text × Event × Id)) ∧
      ∀ before ev r behind, e'.registry.tellings = before ++ (bystander.name, ev, r) :: behind →
        ev ≠ .start →
        (∃ r₀, r₀.id = r.id ∧ (bystander.name, .start, r₀) ∈ before) ∨
        ∃ r₀, r₀.id = r.id ∧ (bystander.name, .start, r₀) ∈ behind ∧
          ∃ x ∈ [quitter], x.hears .start = true ∧ (x.name, .start, r₀) ∈ before := by
  let cs : List Command := [.listen quitter, .listen bystander, .start none, .start none,
    .advanceClock 1800001, .sweep]
  have hcs : ∀ c ∈ cs, c.Orderly (Command.Spares bystander.name) := by
    refine List.forall_mem_cons.2 ⟨.listen nofun orderly_quitter, List.forall_mem_cons.2
      ⟨.listen nofun orderly_bystander, fun c hc => ?_⟩⟩
    simp only [List.mem_cons, List.not_mem_nil, or_false] at hc
    rcases hc with rfl | rfl | rfl | rfl <;> exact .plain rfl nofun
  have hbegins : ([quitter] ++ bystander :: []).map Command.listen <+: cs := ⟨cs.drop 2, rfl⟩
  obtain ⟨-, -, hfollows⟩ := @ends_follow_starts {} (.still 7) (fun n => (0, n.toUInt64)) .silent _ rfl 2
    cs [quitter] [] bystander hbegins hcs rfl
  exact ⟨_, rfl, after 2 cs _, rfl, by decide +kernel, hfollows⟩

/-- A listener is told that a session stopped, and of its start only afterwards, if another one in
front of it stops the session as soon as it is told of it. -/
theorem stop_is_told_before_start :
    ∃ e : Engine, Engine.new {} (.still 7) (fun n => (0, n.toUInt64)) .silent = .ok e ∧
      ∃ r before behind,
        (after 2 [.listen quitter, .listen bystander, .start none] e).registry.tellings =
          before ++ (bystander.name, .stop, r) :: behind ∧
        ¬∃ r₀, r₀.id = r.id ∧ (bystander.name, .start, r₀) ∈ before := by
  let r := Record.new (Id.ofWords (0, 0)) 7 none 1800000
  refine ⟨_, rfl, { r with stopTime := some 7 }, [("quitter", .start, r)], [("bystander", .start, r)],
    by decide +kernel, ?_⟩
  rintro ⟨r₀, -, hr₀⟩
  have hname : bystander.name = "quitter" := congrArg Prod.fst (List.mem_singleton.1 hr₀)
  exact absurd hname (by decide)

end Engine
end Sessions
