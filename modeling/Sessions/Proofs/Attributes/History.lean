import Sessions.Attributes.Sheet
import Sessions.Proofs.Attributes.Contents

/-!
# Sessions.Proofs.Attributes.History

Attributes as they were worked on. What stands under a key can be told from the commands alone, looking
back from the last one: it is what was last written there, unless it was taken away since. So two containers
in which the same was last written are equal, however they came about.

* `Sheet.told`: what a history says about every key; `Sheet.told_eq_some_iff`: it is the last write.
* `Sheet.Answers`: the answers that a history leads to.
* `Sheet.Tells`: a sheet that is as its history says. Every command keeps it so (`Sheet.Tells.perform`) and
  is answered accordingly (`Sheet.Tells.answers`).
* `Sheet.attributes_are_finite_map`: every construction and every run.
-/

namespace Sessions
namespace Sheet

/-! ## Histories -/

namespace Command

/-- The value that a command writes under a key, given what there is: a look-up writes the empty text where
there is nothing, and of a list of entries the first one with the key is written. -/
def written (key : Text) (there : Option Value) : Command → Option Value
  | .set k v => if key = k then some v else none
  | .getOrInsert k => if key = k ∧ there = none then some (.text []) else none
  | .reset es => es.lookup key
  | _ => none

/-- What there was under the key is gone, or something else is written over it. -/
def displaces (key : Text) : Command → Bool
  | .set k _ | .erase k => key = k
  | .clear | .reset _ => true
  | _ => false

/-- There is nothing to answer. -/
def isSilent : Command → Bool
  | .set .. | .clear | .save | .reset _ => true
  | _ => false

end Command

/-- What a history says about the keys, the latest command first. -/
def told : List Command → Mapping
  | [], _ => none
  | c :: h, key => (c.written key (told h key)).or (if c.displaces key then none else told h key)

/-- The history of the copy: the commands before it was last made. -/
def kept : List Command → List Command
  | [] => []
  | .save :: h => h
  | _ :: h => kept h

/-- What a history leads a command to answer. -/
inductive Answers (h : List Command) : Command → Reply → Prop
  | done {c : Command} (hc : c.isSilent = true) : Answers h c .done
  | found (key : Text) : Answers h (.get key) (.found (told h key))
  | there {key : Text} {v : Value} (hv : told h key = some v) : Answers h (.strictGet key) (.value v)
  | missing {key : Text} (hnone : told h key = none) : Answers h (.strictGet key) .missing
  | lookedUp (key : Text) : Answers h (.getOrInsert key) (.value ((told h key).getD (.text [])))
  | erased (key : Text) : Answers h (.erase key) (.found (told h key))
  | contained (key : Text) : Answers h (.contains key) (.flag (told h key).isSome)
  | counted {ks : List Text} (hks : (told h).Lists ks) : Answers h .size (.count ks.length)
  | empty {b : Bool} (hb : b = true ↔ ∀ key, told h key = none) : Answers h .isEmpty (.flag b)
  | compared {b : Bool} (hb : b = true ↔ (told h).Same (told (kept h))) :
    Answers h .equalsSaved (.flag b)

variable {s : Sheet} {c : Command} {h : List Command} {key : Text} {v : Value}

/-! ## The last write -/

/-- A command that does not displace what there is writes only where there is nothing. -/
theorem Command.written_eq_none (hc : c.displaces key = false) : c.written key (some v) = none := by
  cases c with
  | set k w | erase k | clear | reset es => simp_all [written, displaces]
  | _ => simp [written]

/-- What stands under a key is what was last written there, if nothing displaced it since. -/
theorem told_eq_some_iff : told h key = some v ↔
    ∃ later c earlier, h = later ++ c :: earlier ∧ c.written key (told earlier key) = some v ∧
      ∀ c' ∈ later, c'.displaces key = false := by
  induction h with
  | nil => simp [told]
  | cons c h ih =>
    rw [told, Option.or_eq_some_iff]
    constructor
    · rintro (hwritten | ⟨hnone, htold⟩)
      · exact ⟨[], c, h, rfl, hwritten, by simp⟩
      · cases hc : c.displaces key with
        | true => simp [hc] at htold
        | false =>
          rw [hc, if_neg Bool.false_ne_true, ih] at htold
          obtain ⟨later, c', earlier, rfl, hwritten, hlater⟩ := htold
          exact ⟨c :: later, c', earlier, rfl, hwritten, List.forall_mem_cons.2 ⟨hc, hlater⟩⟩
    · rintro ⟨later, c', earlier, hsplit, hwritten, hlater⟩
      cases later with
      | nil =>
        cases hsplit
        exact .inl hwritten
      | cons d later =>
        -- the value was there when the last command came, which neither displaced it nor wrote
        cases hsplit
        obtain ⟨hd, hlater⟩ := List.forall_mem_cons.1 hlater
        have htold := ih.2 ⟨later, c', earlier, rfl, hwritten, hlater⟩
        refine .inr ⟨?_, ?_⟩
        · rw [htold, Command.written_eq_none hd]
        · rw [hd, if_neg Bool.false_ne_true, htold]

/-! ## One command -/

theorem get?_perform (s : Sheet) (c : Command) (key : Text) :
    (s.perform c).2.current.get? key = (c.written key (s.current.get? key)).or
      (if c.displaces key then none else s.current.get? key) := by
  cases c with
  | set k v =>
    have hset : (s.perform (.set k v)).2.current = s.current.set k v := rfl
    rw [hset, Attributes.get?_set]
    by_cases hkey : key = k <;> simp [Command.written, Command.displaces, hkey]
  | getOrInsert k =>
    have hlook : (s.perform (.getOrInsert k)).2.current = (s.current.getOrInsert k).2 := rfl
    rw [hlook, Attributes.get?_getOrInsert]
    by_cases hkey : key = k
    · rw [← hkey]
      cases hthere : s.current.get? key <;> simp [Command.written, Command.displaces]
    · simp [Command.written, Command.displaces, hkey]
  | erase k =>
    have herase : (s.perform (.erase k)).2.current = (s.current.erase k).2 := rfl
    rw [herase, Attributes.get?_erase]
    by_cases hkey : key = k <;> simp [Command.written, Command.displaces, hkey]
  | reset es =>
    have hreset : (s.perform (.reset es)).2.current = Attributes.ofList es := rfl
    rw [hreset, Attributes.get?_ofList]
    simp [Command.written, Command.displaces]
  | strictGet k =>
    have hsame : (s.perform (.strictGet k)).2 = s := by
      simp only [perform]
      cases s.current.get? k <;> rfl
    rw [hsame]
    rfl
  | _ => rfl

/-- A sheet whose attributes and copy are what the history says. -/
structure Tells (h : List Command) (s : Sheet) : Prop where
  current : s.current.get? = told h
  saved : s.saved.get? = told (kept h)

theorem Tells.perform (hs : Tells h s) (c : Command) : Tells (c :: h) (s.perform c).2 where
  current := by
    funext key
    rw [get?_perform, hs.current, told]
  saved := by
    cases c with
    | save => exact hs.current
    | strictGet k =>
      simp only [Sheet.perform]
      cases s.current.get? k <;> exact hs.saved
    | _ => exact hs.saved

theorem Tells.answers (hs : Tells h s) (c : Command) : Answers h c (s.perform c).1 := by
  have hget : ∀ key, s.current.get? key = told h key := congrFun hs.current
  cases c with
  | set | clear | save | reset => exact .done rfl
  | get key =>
    have hreply : (s.perform (.get key)).1 = .found (told h key) := congrArg Reply.found (hget key)
    rw [hreply]
    exact .found key
  | strictGet key =>
    simp only [Sheet.perform, hget]
    cases hv : told h key with
    | none => exact .missing hv
    | some v => exact .there hv
  | getOrInsert key =>
    have hreply : (s.perform (.getOrInsert key)).1 = .value ((told h key).getD (.text [])) := by
      rw [← hget, ← Attributes.fst_getOrInsert]
      rfl
    rw [hreply]
    exact .lookedUp key
  | erase key =>
    have hreply : (s.perform (.erase key)).1 = .found (told h key) := congrArg Reply.found (hget key)
    rw [hreply]
    exact .erased key
  | contains key =>
    have hreply : (s.perform (.contains key)).1 = .flag (told h key).isSome := by
      rw [← hget]
      rfl
    rw [hreply]
    exact .contained key
  | size =>
    have hreply : (s.perform .size).1 = .count s.current.keys.length := by
      rw [Attributes.length_keys]
      rfl
    rw [hreply]
    exact .counted (hs.current ▸ s.current.lists_keys)
  | isEmpty =>
    refine .empty ?_
    rw [beq_iff_eq, Attributes.size_eq_zero_iff]
    simp only [hget]
  | equalsSaved =>
    refine .compared ?_
    rw [Attributes.same_iff, hs.current, hs.saved]

/-! ## Every run -/

def after (cs : List Command) (s : Sheet) : Sheet := cs.foldl (fun s c => (s.perform c).2) s

theorem tells_new (init : List Entry) : Tells [.reset init] (new (Attributes.ofList init)) where
  current := by
    funext key
    rw [told, Command.written, Command.displaces, if_pos rfl, Option.or_none]
    exact Attributes.get?_ofList init key
  saved := rfl

theorem Tells.after (hs : Tells h s) (cs : List Command) : Tells (cs.reverse ++ h) (s.after cs) := by
  induction cs generalizing h s with
  | nil => exact hs
  | cons c cs ih =>
    have hrest : Tells (cs.reverse ++ c :: h) (s.after (c :: cs)) := ih (hs.perform c)
    rwa [List.reverse_cons, List.append_assoc, List.singleton_append]

/-- A sheet that begins with the entries of a list and was worked on since. -/
def built (init : List Entry) (cs : List Command) : Sheet := (new (Attributes.ofList init)).after cs

/-- Its history, the latest command first. -/
def history (init : List Entry) (cs : List Command) : List Command := cs.reverse ++ [.reset init]

theorem tells_built (init : List Entry) (cs : List Command) : Tells (history init cs) (built init cs) :=
  (tells_new init).after cs

/-- **Attributes are a finite map.** However they were made and worked on: under every key there is what
was last written there and not displaced since. Every command is answered by that. To erase a key leaves
nothing under it and all else as it was, and to write through a look-up is to write. The keys are those
under which there is something, each of them once, in the order of their bytes, and the size is their
number. And the attributes of two sheets are equal exactly where in both the keys are the same and the values
under them equal, whatever was done in which order. -/
theorem attributes_are_finite_map (init : List Entry) (cs : List Command) :
    (∀ key v, (built init cs).current.get? key = some v ↔
      ∃ later c earlier, history init cs = later ++ c :: earlier ∧
        c.written key (told earlier key) = some v ∧ ∀ c' ∈ later, c'.displaces key = false) ∧
    (∀ key, (built init cs).current.get? key = told (history init cs) key) ∧
    (∀ c, Answers (history init cs) c ((built init cs).perform c).1) ∧
    (∀ key other, ((built init cs).perform (.erase key)).2.current.get? other =
      if other = key then none else (built init cs).current.get? other) ∧
    (∀ key v, (built init cs).after [.getOrInsert key, .set key v] =
      (built init cs).after [.set key v]) ∧
    ((told (history init cs)).Lists (built init cs).current.keys ∧ (built init cs).current.keys.Nodup ∧
      (built init cs).current.size = (built init cs).current.keys.length) ∧
    ∀ init' cs', (built init cs).current.same (built init' cs').current = true ↔
      (told (history init cs)).Same (told (history init' cs')) := by
  have htells := tells_built init cs
  have hget : ∀ key, (built init cs).current.get? key = told (history init cs) key :=
    congrFun htells.current
  have hlists : (told (history init cs)).Lists (built init cs).current.keys :=
    htells.current ▸ (built init cs).current.lists_keys
  refine ⟨fun key v => ?_, hget, htells.answers, fun key other => Attributes.get?_erase _ key other,
    fun key v => ?_, ⟨hlists, hlists.nodup, (Attributes.length_keys _).symm⟩, fun init' cs' => ?_⟩
  · rw [hget, told_eq_some_iff]
  · have hset := (built init cs).current.set_getOrInsert key v
    exact congrArg (fun a => (built init cs).put a) hset
  · rw [Attributes.same_iff, htells.current, (tells_built init' cs').current]

end Sheet
end Sessions
