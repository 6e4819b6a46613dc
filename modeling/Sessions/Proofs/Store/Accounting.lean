import Mathlib.Logic.Function.Basic
import Sessions.Proofs.Store.Eviction
import Sessions.Proofs.Store.Finality
import Sessions.Proofs.Text.Decimal

/-!
# Sessions.Proofs.Store.Accounting

The store as a map from ids to records, and its books. What a store answers and what becomes of its
records can be told on the map alone; its size is what was created less what was removed and what made
room; what fails changes neither; and the account that the store gives of itself says all that.

* `Store.Booked` is what a command adds to the counts of the store, and what becomes of the limit; the
  balance goes with it.
* `Store.DescribedBy` is what an account of the store says, `Store.describedBy_metrics` that the one it
  gives says so.
* `Desk.Serves` says how each command is answered from the map, and what the map is behind it.
* `Desk.tally` counts, along a run, what was answered.
* `Desk.store_keeps_books`: every run of a store that begins empty and takes nothing in from files.
-/

namespace Sessions

namespace Store

variable {s s' s'' : Store} {r : Record} {id : Id} {lines : List LogLine}

/-! ## Live records -/

/-- These are the live records of the store, each of them once. -/
structure Lists (s : Store) (rs : List Record) : Prop where
  distinct : (rs.map (·.id)).Nodup
  mem : ∀ r, r ∈ rs ↔ s.read r.id = some r ∧ r.isTerminal = false

theorem lists_live (s : Store) : s.Lists s.live where
  distinct := Roster.nodup_filter s.records.distinct
  mem r := by
    simp only [live, Roster.live, List.mem_filter, Bool.not_eq_true']
    exact and_congr_left fun _ => ⟨Roster.get?_of_mem, Roster.mem_of_get?⟩

theorem count_purge (s : Store) : s.purge.1 + s.live.length = s.size := by
  have hle : s.live.length ≤ s.size := List.length_filter_le _ s.records.list
  have hpurged : s.purge.1 = s.size - s.live.length := rfl
  omega

/-! ## Books -/

/-- Every record that was ever created is there still, or was removed, or made room for another one. -/
def Balanced (s : Store) : Prop := s.size + s.removed + s.evictions = s.created

/-- From the first store to the second so many records were created, removed and updated, and the limit was
set to a number, if one is given. The file stayed, and what was in balance is so still. -/
structure Booked (s s' : Store) (creates removes updates : Nat) (limit? : Option Nat) : Prop where
  created : s'.created = s.created + creates
  removed : s'.removed = s.removed + removes
  updates : s'.updates = s.updates + updates
  limit : s'.limit = limit?.getD s.limit
  file : s'.file = s.file
  balanced : s.Balanced → s'.Balanced

theorem Booked.refl (s : Store) : s.Booked s 0 0 0 none := ⟨rfl, rfl, rfl, rfl, rfl, id⟩

/-- Counts add up; of two limits the later one counts. -/
theorem Booked.trans {k l m k' l' m' : Nat} {n n' : Option Nat} (h : s.Booked s' k l m n)
    (h' : s'.Booked s'' k' l' m' n') : s.Booked s'' (k + k') (l + l') (m + m') (n'.or n) where
  created := by rw [h'.created, h.created, Nat.add_assoc]
  removed := by rw [h'.removed, h.removed, Nat.add_assoc]
  updates := by rw [h'.updates, h.updates, Nat.add_assoc]
  limit := by rw [h'.limit, h.limit, Option.getD_or]
  file := h'.file.trans h.file
  balanced := h'.balanced ∘ h.balanced

theorem booked_create (h : s.create r = .ok (s', lines)) : s.Booked s' 1 0 0 none := by
  have hsize := size_create h
  obtain ⟨_, ⟨hroom, rfl⟩ | ⟨hfull, v, _, rfl⟩⟩ := create_cases h
  · refine ⟨rfl, rfl, rfl, rfl, rfl, fun hs => ?_⟩
    rw [if_neg (Bool.eq_false_iff.1 hroom)] at hsize
    unfold Balanced at hs ⊢
    rw [hsize]
    simp only [insert]
    omega
  · -- a full store drops one record for the new one, and both books go up
    refine ⟨rfl, rfl, rfl, rfl, rfl, fun hs => ?_⟩
    rw [if_pos hfull] at hsize
    unfold Balanced at hs ⊢
    rw [hsize]
    simp only [insert, dismiss]
    omega

theorem booked_update (h : s.update r = .ok s') : s.Booked s' 0 0 1 none := by
  have hsize : s'.size = s.size := Roster.size_eq_of_peers (peers_update h)
  obtain ⟨_, rfl⟩ := update_eq_ok h
  refine ⟨rfl, rfl, rfl, rfl, rfl, fun hs => ?_⟩
  unfold Balanced at hs ⊢
  rw [hsize]
  exact hs

theorem booked_remove (s : Store) (id : Id) :
    s.Booked (s.remove id).2 0 (if (s.remove id).1 then 1 else 0) 0 none := by
  unfold remove
  cases hthere : s.contains id with
  | false => exact .refl s
  | true =>
    obtain ⟨v, hv⟩ := Option.isSome_iff_exists.1 hthere
    have hsize : (s.records.erase id).size + 1 = s.records.size := Roster.size_erase hv
    refine ⟨rfl, rfl, rfl, rfl, rfl, fun hs => ?_⟩
    unfold Balanced size at hs ⊢
    simp only [if_true]
    omega

theorem booked_purge (s : Store) : s.Booked s.purge.2 0 s.purge.1 0 none := by
  refine ⟨rfl, rfl, rfl, rfl, rfl, fun hs => ?_⟩
  have hcount := s.count_purge
  have hsize : s.purge.2.size = s.live.length := rfl
  have hremoved : s.purge.2.removed = s.removed + s.purge.1 := rfl
  have hsame : s.purge.2.evictions = s.evictions ∧ s.purge.2.created = s.created := ⟨rfl, rfl⟩
  unfold Balanced at hs ⊢
  omega

theorem booked_setLimit (s : Store) (n : Nat) : s.Booked (s.setLimit n) 0 0 0 (some n) :=
  ⟨rfl, rfl, rfl, rfl, rfl, id⟩

/-! ## The account -/

/-- What an account gives in numbers. -/
inductive Amount where
  | size
  | created
  | removed
  | updates
  | evictions
  | limit

namespace Amount

def name : Amount → String
  | size => "total_sessions"
  | created => "sessions_created"
  | removed => "sessions_removed"
  | updates => "updates"
  | evictions => "evictions"
  | limit => "max_sessions"

def of (q : Amount) (s : Store) : Nat :=
  match q with
  | size => s.size
  | created => s.created
  | removed => s.removed
  | updates => s.updates
  | evictions => s.evictions
  | limit => s.limit

end Amount

/-- An account describes the store. Every amount stands there under its name, as the text without
superfluous zeros that is read as this number; then, whether there is a file to keep the records in, and
which. It says nothing else, and nothing twice. -/
structure DescribedBy (s : Store) (m : List (String × Text)) : Prop where
  amount : ∀ q : Amount,
    ∃ t, m.lookup q.name = some t ∧ Text.Plain t ∧ Numeral.ofDigits t = q.of s
  persistence : m.lookup "persistence_enabled" = some (if s.file = [] then "false" else "true")
  file : m.lookup "persistence_file" = if s.file = [] then none else some s.file
  distinct : (m.map (·.1)).Nodup
  names : ∀ e ∈ m,
    (∃ q : Amount, e.1 = q.name) ∨ e.1 = "persistence_enabled" ∨ e.1 = "persistence_file"

theorem describedBy_metrics (s : Store) : s.DescribedBy s.metrics where
  amount q := by cases q <;> exact ⟨_, rfl, Text.plain_decimal _, Text.ofDigits_decimal _⟩
  persistence := by by_cases h : s.file = [] <;> simp [metrics, isPersistent, List.lookup_cons, h]
  file := by by_cases h : s.file = [] <;> simp [metrics, isPersistent, List.lookup_cons, h]
  distinct := by by_cases h : s.file = [] <;> simp [metrics, isPersistent, h]
  names e he := by
    -- seven entries are always there, the name of the file only where there is one
    rcases List.mem_append.1 he with he | he
    · simp only [List.mem_cons, List.not_mem_nil, or_false] at he
      rcases he with rfl | rfl | rfl | rfl | rfl | rfl | rfl
      exacts [.inl ⟨.size, rfl⟩, .inl ⟨.created, rfl⟩, .inl ⟨.removed, rfl⟩, .inl ⟨.updates, rfl⟩,
        .inl ⟨.evictions, rfl⟩, .inl ⟨.limit, rfl⟩, .inr (.inl rfl)]
    · split at he
      · rw [List.mem_singleton.1 he]
        exact .inr (.inr rfl)
      · cases he

/-- There is one text only that an account can give for an amount. -/
theorem DescribedBy.lookup {m : List (String × Text)} (h : s.DescribedBy m) (q : Amount) :
    m.lookup q.name = some (Text.decimal (q.of s)) := by
  obtain ⟨t, ht, hplain, hvalue⟩ := h.amount q
  rw [ht, Text.eq_decimal_of_plain hplain, hvalue]

/-! ## Records by id -/

theorem create_of_room (h : s.read r.id = none) (hroom : s.isFull = false) :
    s.create r = .ok (s.insert r, []) := by
  have hnew : s.contains r.id = false := Roster.contains_eq_false_iff.2 h
  rw [create, hnew, hroom, if_neg Bool.false_ne_true, if_neg Bool.false_ne_true]

theorem create_of_full (h : s.read r.id = none) (hfull : s.isFull = true) :
    s.create r = s.evict?.elim (.error (Fault.storeFull s.limit)) fun room =>
      .ok (room.1.insert r, room.2) := by
  have hnew : s.contains r.id = false := Roster.contains_eq_false_iff.2 h
  rw [create, hnew, if_neg Bool.false_ne_true, if_pos hfull]
  cases s.evict? <;> rfl

theorem read_insert (s : Store) (r : Record) :
    (s.insert r).read = Function.update s.read r.id (some r) := by
  funext id
  rw [Function.update_apply]
  exact Roster.get?_put s.records r id

theorem read_dismiss (s : Store) (v : Record) :
    (s.dismiss v).read = Function.update s.read v.id none := by
  funext id
  rw [Function.update_apply]
  exact Roster.get?_erase s.records v.id id

theorem fst_remove (s : Store) (id : Id) : (s.remove id).1 = (s.read id).isSome := by
  unfold remove
  cases hthere : s.contains id with
  | false => exact hthere.symm
  | true => exact hthere.symm

theorem update_of_fit {v : Record} (h : s.read r.id = some v)
    (hfit : v.isTerminal = true → r.isTerminal = true) : s.update r = .ok (s.rewrite r) := by
  cases hlive : v.isTerminal with
  | false => exact update_ok_of_live h hlive
  | true => simp [update, h, revivalFault?, hfit hlive, rewrite]

end Store

namespace Desk

variable {d d' : Desk} {id : Id} {r : Record}

/-- The command brings no records in from files. -/
def Command.isDirect : Command → Bool
  | .load | .reopen => false
  | _ => true

/-- The command is about the copies that the user holds, or about files, and asks the store nothing. -/
def Command.isAside : Command → Bool
  | .change .. | .save | .putFile .. | .fileText _ | .deleteFile _ => true
  | _ => false

/-- What a store answers to a command and what is stored behind it, in terms of what is stored before,
id by id. -/
inductive Serves (d : Desk) : Command → Except Fault Reply → (Id → Option Record) → Prop
  | nothingToCreate {source : Source} {f : Fault} (h : d.find source = .error f) :
    Serves d (.create source) (.error f) d.store.read
  | duplicate {source : Source} {r v : Record} (h : d.find source = .ok r)
    (hv : d.store.read r.id = some v) :
    Serves d (.create source) (.error (Fault.duplicate r.id)) d.store.read
  | created {source : Source} {r : Record} (h : d.find source = .ok r)
    (hnew : d.store.read r.id = none) (hroom : d.store.isFull = false) :
    Serves d (.create source) (.ok .done) (Function.update d.store.read r.id (some r))
  | evicted {source : Source} {r v : Record} (h : d.find source = .ok r)
    (hnew : d.store.read r.id = none) (hfull : d.store.isFull = true)
    (hv : d.store.read v.id = some v) (hend : v.isTerminal = true)
    (holdest : ∀ id w, d.store.read id = some w → w.isTerminal = true → v.lastAccess ≤ w.lastAccess) :
    Serves d (.create source) (.ok .done)
      (Function.update (Function.update d.store.read v.id none) r.id (some r))
  | full {source : Source} {r : Record} (h : d.find source = .ok r)
    (hnew : d.store.read r.id = none) (hfull : d.store.isFull = true)
    (hlive : ∀ id w, d.store.read id = some w → w.isTerminal = false) :
    Serves d (.create source) (.error (Fault.storeFull d.store.limit)) d.store.read
  | read (id : Id) (place : Option Text) :
    Serves d (.read id place) (.ok (.record (d.store.read id))) d.store.read
  | contained (id : Id) :
    Serves d (.contains id) (.ok (.flag (d.store.read id).isSome)) d.store.read
  | nothingToUpdate {source : Source} {f : Fault} (h : d.find source = .error f) :
    Serves d (.update source) (.error f) d.store.read
  | unknown {source : Source} {r : Record} (h : d.find source = .ok r)
    (hnone : d.store.read r.id = none) :
    Serves d (.update source) (.error (.unknown r.id)) d.store.read
  | ended {source : Source} {r v : Record} {f : Fault} (h : d.find source = .ok r)
    (hv : d.store.read r.id = some v) (hend : v.endFault? = some f) (hlive : r.isTerminal = false) :
    Serves d (.update source) (.error f) d.store.read
  | updated {source : Source} {r v : Record} (h : d.find source = .ok r)
    (hv : d.store.read r.id = some v) (hfit : v.isTerminal = true → r.isTerminal = true) :
    Serves d (.update source) (.ok .done) (Function.update d.store.read r.id (some r))
  | removed (id : Id) :
    Serves d (.remove id) (.ok (.flag (d.store.read id).isSome)) (Function.update d.store.read id none)
  | listed {rs : List Record} (h : d.store.Lists rs) :
    Serves d .list (.ok (.records rs)) d.store.read
  | purged {rs : List Record} {n : Nat} (h : d.store.Lists rs) (hn : n + rs.length = d.store.size) :
    Serves d .purge (.ok (.count n)) (fun id => (d.store.read id).filter (!·.isTerminal))
  | described {m : List (String × Text)} (h : d.store.DescribedBy m) :
    Serves d .metrics (.ok (.metrics m)) d.store.read
  | limited (n : Nat) : Serves d (.setLimit n) (.ok .done) d.store.read
  | persistent : Serves d .isPersistent (.ok (.flag (d.store.file != []))) d.store.read
  | aside {c : Command} (h : c.isAside = true) (a : Except Fault Reply) : Serves d c a d.store.read

theorem perform_create {source : Source} (h : d.find source = .ok r) :
    d.perform (.create source) = match d.store.create r with
      | .ok (store, lines) => (.ok .done, { d with store }.noteAll lines)
      | .error f => (.error f, d) := by
  rw [perform, create, h]
  simp only [bind, Except.bind]
  cases d.store.create r <;> rfl

theorem perform_update {source : Source} (h : d.find source = .ok r) :
    d.perform (.update source) = match d.store.update r with
      | .ok store => (.ok .done, { d with store })
      | .error f => (.error f, d) := by
  rw [perform, update, h]
  simp only [bind, Except.bind]
  cases d.store.update r <;> rfl

theorem serves_create (d : Desk) (source : Source) :
    d.Serves (.create source) (d.perform (.create source)).1
      (d.perform (.create source)).2.store.read := by
  cases hfind : d.find source with
  | error f =>
    rw [perform, create, hfind]
    exact .nothingToCreate hfind
  | ok r =>
    rw [perform_create hfind]
    cases hread : d.store.read r.id with
    | some v =>
      rw [Store.create_of_stored hread]
      exact .duplicate hfind hread
    | none =>
      cases hfull : d.store.isFull with
      | false =>
        have hserved := Serves.created hfind hread hfull
        rw [← Store.read_insert] at hserved
        rw [Store.create_of_room hread hfull]
        exact hserved
      | true =>
        rw [Store.create_of_full hread hfull, Store.evict?]
        cases hv : Roster.oldestEnded d.store.records.list with
        | none =>
          refine .full hfind hread hfull fun id w hw => ?_
          by_contra hend
          obtain ⟨v, hv'⟩ := Roster.exists_oldestEnded (Roster.mem_of_get? hw) (by simpa using hend)
          rw [hv] at hv'
          cases hv'
        | some v =>
          obtain ⟨hmem, hend⟩ := Roster.oldestEnded_spec hv
          have hserved := Serves.evicted hfind hread hfull (Roster.get?_of_mem hmem) hend
            fun id w hw => Roster.lastAccess_oldestEnded_le hv (Roster.mem_of_get? hw)
          rw [← Store.read_dismiss, ← Store.read_insert] at hserved
          exact hserved

theorem serves_update (d : Desk) (source : Source) :
    d.Serves (.update source) (d.perform (.update source)).1
      (d.perform (.update source)).2.store.read := by
  cases hfind : d.find source with
  | error f =>
    rw [perform, update, hfind]
    exact .nothingToUpdate hfind
  | ok r =>
    rw [perform_update hfind]
    cases hread : d.store.read r.id with
    | none =>
      rw [Store.update, hread]
      exact .unknown hfind hread
    | some v =>
      by_cases hfit : v.isTerminal = true → r.isTerminal = true
      · have hserved := Serves.updated hfind hread hfit
        rw [Store.update_of_fit hread hfit]
        have hread' : (d.store.rewrite r).read = Function.update d.store.read r.id (some r) := by
          funext id
          rw [Store.read_rewrite, Function.update_apply]
        rw [← hread'] at hserved
        exact hserved
      · obtain ⟨hend, hlive⟩ := Classical.not_imp.1 hfit
        rw [Bool.not_eq_true] at hlive
        obtain ⟨f, hf, hrefused⟩ := Store.exists_update_eq_error hread hend hlive
        rw [hrefused]
        exact .ended hfind hread hf hlive

/-- Every command is served on the map alone. -/
theorem serves_perform (d : Desk) {c : Command} (hc : c.isDirect = true) :
    d.Serves c (d.perform c).1 (d.perform c).2.store.read := by
  cases c with
  | create source => exact serves_create d source
  | update source => exact serves_update d source
  | read id place => cases place <;> exact .read id _
  | remove id =>
    have hserved := Serves.removed (d := d) id
    have hread : (d.store.remove id).2.read = Function.update d.store.read id none := by
      funext id'
      rw [Store.read_remove, Function.update_apply]
    rw [← hread, ← Store.fst_remove] at hserved
    exact hserved
  | contains id => exact .contained id
  | list => exact .listed d.store.lists_live
  | purge =>
    have hserved := Serves.purged d.store.lists_live d.store.count_purge
    rw [← funext d.store.read_purge] at hserved
    exact hserved
  | metrics => exact .described d.store.describedBy_metrics
  | setLimit n => exact .limited n
  | isPersistent => exact .persistent
  | load | reopen => cases hc
  | change place op =>
    simp only [perform]
    cases d.copy? place <;> exact .aside rfl _
  | save =>
    simp only [perform]
    cases hsave : d.save with
    | error f => exact .aside rfl _
    | ok d' =>
      rw [settle, (save_eq_ok hsave).2]
      exact .aside rfl _
  | _ => exact .aside rfl _

/-! ## What was answered -/

/-- How many records a command created, told from its answer. -/
def Command.creates : Command → Except Fault Reply → Nat
  | .create _, .ok _ => 1
  | _, _ => 0

/-- How many records a command removed. -/
def Command.removes : Command → Except Fault Reply → Nat
  | .remove _, .ok (.flag true) => 1
  | .purge, .ok (.count n) => n
  | _, _ => 0

/-- How many records a command wrote over others. -/
def Command.updates : Command → Except Fault Reply → Nat
  | .update _, .ok _ => 1
  | _, _ => 0

/-- The limit that a command sets. -/
def Command.limit? : Command → Option Nat
  | .setLimit n => some n
  | _ => none

/-- The sum of what the commands of a run count for, each with its answer. -/
def tally (count : Command → Except Fault Reply → Nat) : List Command → Desk → Nat
  | [], _ => 0
  | c :: cs, d => count c (d.perform c).1 + tally count cs (d.perform c).2

/-! ## One command -/

theorem booked_perform (d : Desk) {c : Command} (hc : c.isDirect = true) :
    d.store.Booked (d.perform c).2.store (c.creates (d.perform c).1) (c.removes (d.perform c).1)
      (c.updates (d.perform c).1) c.limit? := by
  cases c with
  | create source =>
    rw [perform]
    cases hcreate : d.create source with
    | error f => exact .refl d.store
    | ok d' =>
      obtain ⟨_, r, lines, hstore⟩ := create_eq_ok hcreate
      exact Store.booked_create hstore
  | update source =>
    rw [perform]
    cases hupdate : d.update source with
    | error f => exact .refl d.store
    | ok d' =>
      obtain ⟨_, r, _, hstore⟩ := update_eq_ok hupdate
      exact Store.booked_update hstore
  | remove id =>
    have hbooked := d.store.booked_remove id
    have hremoves : Command.removes (.remove id) (d.perform (.remove id)).1 =
        if (d.store.remove id).1 then 1 else 0 := by
      simp only [perform]
      cases (d.store.remove id).1 <;> rfl
    rw [hremoves]
    exact hbooked
  | purge => exact d.store.booked_purge
  | save =>
    rw [perform]
    cases hsave : d.save with
    | error f => exact .refl d.store
    | ok d' =>
      rw [settle, (save_eq_ok hsave).2]
      exact .refl d.store
  | read id place => cases place <;> exact .refl d.store
  | change place op =>
    simp only [perform]
    cases d.copy? place <;> exact .refl d.store
  | setLimit n => exact d.store.booked_setLimit n
  | load | reopen => cases hc
  | _ => exact .refl d.store

/-! ## Every run -/

/-- Of the limits that a run sets the last one counts. -/
theorem getLast?_limits (c : Command) (cs : List Command) :
    ((c :: cs).filterMap Command.limit?).getLast? =
      (cs.filterMap Command.limit?).getLast?.or c.limit? := by
  cases hc : c.limit? with
  | none => rw [List.filterMap_cons_none hc, Option.or_none]
  | some n => rw [List.filterMap_cons_some hc, List.getLast?_cons, Option.or_some]

theorem booked_after {cs : List Command} (hcs : ∀ c ∈ cs, c.isDirect = true) (d : Desk) :
    d.store.Booked (d.after cs).store (d.tally Command.creates cs) (d.tally Command.removes cs)
      (d.tally Command.updates cs) (cs.filterMap Command.limit?).getLast? := by
  induction cs generalizing d with
  | nil => exact .refl d.store
  | cons c cs ih =>
    obtain ⟨hc, hcs⟩ := List.forall_mem_cons.1 hcs
    rw [getLast?_limits]
    exact (booked_perform d hc).trans (ih hcs _)

/-- What fails at once changes nothing. -/
theorem settle_eq_self {o : Except Fault Desk} {f : Fault} (h : (d.settle o).1 = .error f) :
    (d.settle o).2 = d := by
  cases o with
  | ok d' => cases h
  | error f => rfl

/-- **The store keeps its books.** Take a store that begins empty and any run of it that takes nothing in
from files, whether its commands go through or fail. Behind it every key is the id of its record, the
keys are as many as the size says, and the size is what was created less what was removed and what made
room. The counts are those of the answers, the limit is the one that was set last, and the file stays. The
next command, whatever it is, is served on the map of the records alone. Giving an account changes nothing,
and the account has all these numbers in it; setting a limit changes the limit only. And a creation or an
update that fails changes nothing, neither in the map nor anywhere else. -/
theorem store_keeps_books {p : StorePolicy} (hnew : d.store = Store.new p) {cs : List Command}
    (hcs : ∀ c ∈ cs, c.isDirect = true) (hd' : d.after cs = d') :
    (∀ id r, d'.store.read id = some r → r.id = id) ∧
    (∃ keys : List Id, keys.Nodup ∧ keys.length = d'.store.size ∧
      ∀ id, id ∈ keys ↔ (d'.store.read id).isSome = true) ∧
    d'.store.size + d'.store.removed + d'.store.evictions = d'.store.created ∧
    d'.store.created = d.tally Command.creates cs ∧ d'.store.removed = d.tally Command.removes cs ∧
    d'.store.updates = d.tally Command.updates cs ∧
    d'.store.limit = (cs.filterMap Command.limit?).getLast?.getD p.maxSessions ∧
    d'.store.file = p.file ∧
    (∀ c, c.isDirect = true → d'.Serves c (d'.perform c).1 (d'.perform c).2.store.read) ∧
    (∃ m, d'.perform .metrics = (.ok (.metrics m), d') ∧ d'.store.DescribedBy m) ∧
    (∀ n, d'.perform (.setLimit n) = (.ok .done, { d' with store := { d'.store with limit := n } })) ∧
    ∀ source f, ((d'.perform (.create source)).1 = .error f → (d'.perform (.create source)).2 = d') ∧
      ((d'.perform (.update source)).1 = .error f → (d'.perform (.update source)).2 = d') := by
  subst hd'
  have hbooked := booked_after hcs d
  have hempty : d.store.Balanced := by
    rw [hnew]
    rfl
  have hcreated := hbooked.created
  have hremoved := hbooked.removed
  have hupdates := hbooked.updates
  have hlimit := hbooked.limit
  have hfile := hbooked.file
  rw [hnew] at hcreated hremoved hupdates hlimit hfile
  refine ⟨fun id r hr => Roster.id_of_get? hr, ?_, hbooked.balanced hempty,
    hcreated.trans (Nat.zero_add _), hremoved.trans (Nat.zero_add _), hupdates.trans (Nat.zero_add _),
    hlimit, hfile, fun c hc => serves_perform _ hc, ⟨_, rfl, Store.describedBy_metrics _⟩, fun n => rfl,
    fun source f => ⟨settle_eq_self, settle_eq_self⟩⟩
  refine ⟨(d.after cs).store.records.list.map (·.id), (d.after cs).store.records.distinct, ?_,
    fun id => Roster.mem_ids_iff⟩
  exact List.length_map _

/-- Three sessions in a store for two: the first one is stopped and makes room for the third one, the
second one expires and is purged; an update, a creation of an id that is taken and one for which there is
no room fail. -/
def busyDay : List Command :=
  let session (id : Id) : Source := .draft ⟨.new id 1000 none 1800000, []⟩
  [.create (session "a"), .create (session "b"), .create (session "a"), .read "a" (some "x"),
    .change "x" (.stop 2000), .update (.copy "x"), .update (session "a"), .create (session "c"),
    .setLimit 1, .create (session "e"), .read "b" (some "y"), .change "y" .expire, .update (.copy "y"),
    .purge]

theorem store_keeps_books_on_a_busy_day :
    ∃ d d' : Desk, d.store = Store.new { maxSessions := 2 } ∧ d.after busyDay = d' ∧
      (d'.store.created = 3 ∧ d'.store.removed = 1 ∧ d'.store.updates = 2) ∧
      d'.store.evictions = 1 ∧ d'.store.size = 1 ∧
      d'.store.size + d'.store.removed + d'.store.evictions = d'.store.created ∧
      (∃ m, d'.perform .metrics = (.ok (.metrics m), d') ∧
        m.lookup "total_sessions" = some (Text.decimal 1) ∧
        m.lookup "sessions_created" = some (Text.decimal 3) ∧
        m.lookup "max_sessions" = some (Text.decimal 1)) ∧
      ∃ f, d'.perform (.create (.draft ⟨.new "c" 1000 none 1800000, []⟩)) = (.error f, d') := by
  let d := openWith { maxSessions := 2 } ⟨Record.id, fun _ => none⟩ .empty .silent
  have htally : d.tally Command.creates busyDay = 3 ∧ d.tally Command.removes busyDay = 1 ∧
      d.tally Command.updates busyDay = 2 := by decide +kernel
  have hstore : (d.after busyDay).store.evictions = 1 ∧ (d.after busyDay).store.size = 1 ∧
      (d.after busyDay).store.read "c" = some (.new "c" 1000 none 1800000) := by decide +kernel
  generalize hd' : d.after busyDay = d' at hstore
  obtain ⟨_, _, hbalance, hcreated, hremoved, hupdates, hlimit, _, _, ⟨m, hm, hdescribed⟩, _, hrefused⟩ :=
    @store_keeps_books d d' { maxSessions := 2 } rfl busyDay (by decide) hd'
  replace hcreated := hcreated.trans htally.1
  have hlimit : d'.store.limit = 1 := hlimit
  have htotal := hdescribed.lookup .size
  have hmade := hdescribed.lookup .created
  have hmost := hdescribed.lookup .limit
  simp only [Store.Amount.of, hstore.2.1, hcreated, hlimit] at htotal hmade hmost
  have hanswer : (d'.perform (.create (.draft ⟨.new "c" 1000 none 1800000, []⟩))).1 =
      .error (Fault.duplicate "c") := by
    rw [perform_create rfl, Store.create_of_stored hstore.2.2]
    rfl
  exact ⟨d, d', rfl, hd', ⟨hcreated, hremoved.trans htally.2.1, hupdates.trans htally.2.2⟩,
    hstore.1, hstore.2.1, hbalance, ⟨m, hm, htotal, hmade, hmost⟩,
    _, Prod.ext hanswer ((hrefused _ _).1 hanswer)⟩

end Desk

end Sessions
