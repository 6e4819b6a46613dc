import Mathlib.Logic.Function.Basic
import Sessions.Proofs.Text.Numeral
import Sessions.Settings.Environment

/-!
# Sessions.Proofs.Settings.Environment

What the environment sets. A variable that is set to a text that is not empty sets one thing and no other,
as far as the text means anything; all else stays at its default, and only an interval that is not positive
spoils the whole.

* `Settings.Item`: one item of a configuration. `Settings.Item.get_changeAll`: the last change to it counts.
* `Settings.faults_eq_nil_iff`: when a configuration is in order.
* `Environment.Sets`: a variable with something to say.
* `Environment.durations_are_read_off_front`: the variables with integers, for every text.
* `Environment.Describes` and `Environment.settings_follow_environment`: the configuration as a whole, for
  every environment.
-/

namespace Sessions

/-! ## Changes one after the other -/

namespace Settings

/-- One item of a configuration, with the value that a change writes to it. No change touches it otherwise. -/
structure Item (α : Type) where
  get : Settings → α
  written : Change → Option α
  get_change : ∀ s c, get (s.change c) = (written c).getD (get s) := by intro s c; cases c <;> rfl

namespace Item

def timeout : Item Millis where
  get s := s.life.timeout
  written | .timeout t => some t | _ => none

def interval : Item Millis where
  get s := s.life.interval
  written | .interval t => some t | _ => none

def autoCreate : Item Bool where
  get s := s.life.autoCreate
  written | .autoCreate on => some on | _ => none

def sweeping : Item Bool where
  get s := s.life.sweeping
  written | .sweeping on => some on | _ => none

def requireHost : Item Bool where
  get s := s.life.requireHost
  written | .requireHost on => some on | _ => none

def maxSessions : Item Nat where
  get s := s.store.maxSessions
  written | .maxSessions n => some n | _ => none

def storeFile : Item Text where
  get s := s.store.file
  written | .storeFile path => some path | _ => none

def saveOnClose : Item Bool where
  get s := s.store.saveOnClose
  written | .saveOnClose on => some on | _ => none

def level : Item Level where
  get s := s.log.level
  written | .level l => some l | _ => none

def console : Item Bool where
  get s := s.log.console
  written | .console on => some on | _ => none

/-- To name a file for the log switches the file on. -/
def toFile : Item Bool where
  get s := s.log.toFile
  written | .logFile _ => some true | _ => none

def logFile : Item Text where
  get s := s.log.file
  written | .logFile path => some path | _ => none

/-- Of a run of changes the last one that writes to an item counts. -/
theorem get_changeAll {α : Type} (x : Item α) (cs : List Change) (s : Settings) :
    x.get (s.changeAll cs) = (cs.filterMap x.written).getLast?.getD (x.get s) := by
  induction cs generalizing s with
  | nil => rfl
  | cons c cs ih =>
    have hrest : x.get (s.changeAll (c :: cs)) =
        (cs.filterMap x.written).getLast?.getD (x.get (s.change c)) := ih (s.change c)
    rw [hrest, x.get_change]
    cases hw : x.written c with
    | none => rw [List.filterMap_cons_none hw, Option.getD_none]
    | some a => rw [List.filterMap_cons_some hw, List.getLast?_cons, Option.getD_some, Option.getD_some]

end Item

variable {s : Settings}

/-! ## Order -/

theorem faults_eq_nil_iff :
    s.faults = [] ↔ 0 < s.life.interval.toInt ∧ (s.log.toFile = true → s.log.file ≠ []) := by
  have hinterval : s.life.interval ≤ 0 ↔ ¬ 0 < s.life.interval.toInt := by
    rw [Int64.le_iff_toInt_le, Int.not_lt]
    rfl
  simp only [faults, lifeFault?, logFault?, hinterval, List.append_eq_nil_iff]
  refine and_congr ?_ ?_
  · by_cases h : 0 < s.life.interval.toInt <;> simp [h]
  · by_cases h : s.log.toFile = true ∧ s.log.file = [] <;> simp_all

end Settings

namespace Environment

open Settings (Change Item changeAll)

/-- What a variable sets in milliseconds. -/
inductive Duration where
  | timeout
  | interval
deriving DecidableEq, Repr

namespace Duration

def name : Duration → Text
  | .timeout => "SV_SESSION_TIMEOUT_MS"
  | .interval => "SV_VALIDATION_INTERVAL_MS"

def read? (env : Environment) : Duration → Option Millis
  | .timeout => env.timeout?
  | .interval => env.interval?

end Duration

variable {env : Environment} {name v : Text}

/-- The variable says something: it is set, and up to the first zero byte this is the text, which is not
empty. -/
def Sets (env : Environment) (name v : Text) : Prop :=
  v ≠ [] ∧ ∃ raw, env name = some raw ∧ raw.untilNul = v

theorem value?_eq_some_iff : env.value? name = some v ↔ env.Sets name v := by
  unfold value? Sets
  cases env name with
  | none => simp
  | some raw =>
    by_cases hnil : raw.untilNul = []
    · simp only [hnil, if_true]
      refine iff_of_false (by simp) ?_
      rintro ⟨hne, _, ⟨⟩, hv⟩
      exact hne (hv.symm.trans hnil)
    · simp only [hnil, if_false, Option.some.injEq, exists_eq_left']
      refine ⟨fun hv => ⟨hv ▸ hnil, hv⟩, fun h => h.2⟩

/-! ## Integers -/

theorem read?_of_sets {d : Duration} (h : env.Sets d.name v) : d.read? env = v.leadingInt64? := by
  have hread : d.read? env = env.int? d.name := by cases d <;> rfl
  rw [hread, int?, value?_eq_some_iff.2 h, Option.bind_some]

/-- The integer is a signed 64-bit number. -/
def Fits (z : Int) : Prop := -2 ^ 63 ≤ z ∧ z < 2 ^ 63

theorem exists_millis {z : Int} : Fits z ↔ ∃ n : Millis, n.toInt = z := by
  constructor
  · intro h
    exact ⟨Int64.ofInt z, Int64.toInt_ofInt_of_le h.1 h.2⟩
  · rintro ⟨n, rfl⟩
    exact ⟨n.le_toInt, n.toInt_lt⟩

/-- **Integers are read off the front.** What is read is the integer that the text begins with, behind
white space, if 64 bits hold it; what follows its digits makes no difference. So of a text that is an
integer and nothing else exactly this integer is read, or nothing where it is out of range; a text that does
not begin with an integer in range is taken for not set; and every number is read back from how it is
written. -/
theorem durations_are_read_off_front {d : Duration} (h : env.Sets d.name v) :
    (∀ n : Millis, d.read? env = some n ↔ ∃ rest, v.Begins n.toInt rest) ∧
    (∀ z, v.IsInteger z → (∀ n : Millis, d.read? env = some n ↔ n.toInt = z) ∧
      (d.read? env = none ↔ ¬ Fits z)) ∧
    (d.read? env = none ↔ ∀ z rest, v.Begins z rest → ¬ Fits z) ∧
    ∀ n : Millis, v = Text.ofInt n.toInt → d.read? env = some n := by
  have hsome : ∀ n : Millis, d.read? env = some n ↔ ∃ rest, v.Begins n.toInt rest := by
    intro n
    rw [read?_of_sets h, Text.leadingInt64?_eq_some_iff]
  have hnone : d.read? env = none ↔ ∀ z rest, v.Begins z rest → ¬ Fits z := by
    simp only [Option.eq_none_iff_forall_ne_some, ne_eq, hsome, not_exists]
    constructor
    · intro hno z rest hbegins hfits
      obtain ⟨n, rfl⟩ := exists_millis.1 hfits
      exact hno n rest hbegins
    · intro hno n rest hbegins
      exact hno _ rest hbegins (exists_millis.2 ⟨n, rfl⟩)
  refine ⟨hsome, fun z hz => ⟨fun n => ?_, ?_⟩, hnone, fun n hn => ?_⟩
  · rw [hsome]
    constructor
    · rintro ⟨rest, hbegins⟩
      exact (hbegins.unique hz).1
    · rintro rfl
      exact ⟨[], hz⟩
  · rw [hnone]
    constructor
    · intro hno
      exact hno z [] hz
    · intro hlong z' rest hbegins
      rwa [(hbegins.unique hz).1]
  · rw [hsome, hn]
    exact ⟨[], Text.isInteger_ofInt n.toInt⟩

/-- The least number that 64 bits hold is read, the next one below it is not. -/
theorem durations_are_read_off_front_at_least_number :
    ∃ env : Environment, env.Sets "SV_SESSION_TIMEOUT_MS" "-9223372036854775808" ∧
      env.Sets "SV_VALIDATION_INTERVAL_MS" "\t-9223372036854775809" ∧
      env.timeout? = some (-9223372036854775808) ∧ env.interval? = none := by
  let env : Environment := fun name => if name = "SV_SESSION_TIMEOUT_MS" then
    some "-9223372036854775808" else some "\t-9223372036854775809"
  have htimeout : env.Sets Duration.timeout.name "-9223372036854775808" :=
    ⟨by decide, _, rfl, by decide⟩
  have hinterval : env.Sets Duration.interval.name "\t-9223372036854775809" :=
    ⟨by decide, _, rfl, by decide⟩
  have hlong : ("\t-9223372036854775809" : Text).IsInteger (-9223372036854775809) :=
    ⟨⟨true, "9223372036854775809", []⟩, Numeral.scan?_eq_some_iff.1 (by decide), by decide, rfl⟩
  refine ⟨env, htimeout, hinterval, ?_, ?_⟩
  · exact (durations_are_read_off_front htimeout).2.2.2 (-9223372036854775808) (by decide +kernel)
  · refine ((durations_are_read_off_front hinterval).2.1 _ hlong).2.2 fun hfits => ?_
    exact absurd hfits.1 (by decide)

/-- A number with a unit behind it is no integer, and is taken for one. -/
theorem number_with_unit_is_read :
    ∃ env : Environment, env.Sets "SV_SESSION_TIMEOUT_MS" "30s" ∧ (∀ z, ¬ Text.IsInteger "30s" z) ∧
      env.timeout? = some 30 ∧
      ¬ ∀ (d : Duration) (env : Environment) (v : Text), env.Sets d.name v →
        ∀ n : Millis, d.read? env = some n ↔ v.IsInteger n.toInt := by
  let env : Environment := fun _ => some "30s"
  have hsets : env.Sets "SV_SESSION_TIMEOUT_MS" "30s" := ⟨by decide, _, rfl, by decide⟩
  have hbegins : Text.Begins "30s" 30 "s" :=
    ⟨⟨false, "30", "s"⟩, Numeral.scan?_eq_some_iff.1 (by decide), by decide, rfl⟩
  have hno : ∀ z, ¬ Text.IsInteger "30s" z := by
    intro z hz
    exact absurd (hz.unique hbegins).2 (by decide)
  have hread : env.timeout? = some 30 := by decide +kernel
  refine ⟨env, hsets, hno, hread, fun hall => ?_⟩
  exact hno _ ((hall .timeout env "30s" hsets 30).1 hread)

/-! ## The configuration as a whole -/

/-- The configuration is what the variables say, and the default where they say nothing. -/
structure Describes (env : Environment) (s : Settings) : Prop where
  timeout : s.life.timeout = env.timeout?.getD ({} : LifePolicy).timeout
  interval : s.life.interval = env.interval?.getD ({} : LifePolicy).interval
  autoCreate : s.life.autoCreate = env.autoCreate?.getD ({} : LifePolicy).autoCreate
  sweeping : s.life.sweeping = env.sweeping?.getD ({} : LifePolicy).sweeping
  requireHost : s.life.requireHost = ({} : LifePolicy).requireHost
  maxSessions : s.store.maxSessions = ({} : StorePolicy).maxSessions
  storeFile : s.store.file = ({} : StorePolicy).file
  saveOnClose : s.store.saveOnClose = ({} : StorePolicy).saveOnClose
  level : s.log.level = env.level?.getD ({} : LogPolicy).level
  console : s.log.console = ({} : LogPolicy).console
  toFile : s.log.toFile = true ↔ ∃ path, env.Sets "SV_LOG_FILE" path
  file : ∀ path, env.Sets "SV_LOG_FILE" path → s.log.file = path
  noFile : (∀ path, ¬ env.Sets "SV_LOG_FILE" path) → s.log.file = ({} : LogPolicy).file

theorem filterMap_change {α β : Type} (written : Change → Option β) (o : Option α) (f : α → Change) :
    (o.map f).toList.filterMap written = (o.bind fun a => written (f a)).toList := by
  cases o with
  | none => rfl
  | some a => cases h : written (f a) <;> simp [h]

/-- The changes to one thing. -/
theorem filterMap_changes {β : Type} (env : Environment) (written : Change → Option β) :
    env.changes.filterMap written =
      (env.timeout?.bind fun t => written (.timeout t)).toList ++
      (env.interval?.bind fun t => written (.interval t)).toList ++
      (env.autoCreate?.bind fun on => written (.autoCreate on)).toList ++
      (env.sweeping?.bind fun on => written (.sweeping on)).toList ++
      (env.level?.bind fun l => written (.level l)).toList ++
      (env.logFile?.bind fun path => written (.logFile path)).toList := by
  simp only [changes, List.filterMap_append, filterMap_change]

/-- An item to which one of the variables makes the only change, or none does. -/
theorem get_changes {α : Type} (x : Item α) {o : Option α}
    (ho : env.changes.filterMap x.written = o.toList) :
    x.get (changeAll {} env.changes) = o.getD (x.get {}) := by
  rw [x.get_changeAll, ho]
  cases o <;> rfl

theorem describes_changes (env : Environment) : env.Describes (changeAll {} env.changes) := by
  have hon : (changeAll {} env.changes).log.toFile = (env.logFile?.map fun _ => true).getD false :=
    get_changes .toFile (by simp only [filterMap_changes, Item.toFile]; cases env.logFile? <;> simp)
  have hfile : (changeAll {} env.changes).log.file = env.logFile?.getD [] :=
    get_changes .logFile (by simp [filterMap_changes, Item.logFile])
  exact {
    timeout := get_changes .timeout (by simp [filterMap_changes, Item.timeout])
    interval := get_changes .interval (by simp [filterMap_changes, Item.interval])
    autoCreate := get_changes .autoCreate (by simp [filterMap_changes, Item.autoCreate])
    sweeping := get_changes .sweeping (by simp [filterMap_changes, Item.sweeping])
    level := get_changes .level (by simp [filterMap_changes, Item.level])
    requireHost := get_changes .requireHost (o := none) (by simp [filterMap_changes, Item.requireHost])
    maxSessions := get_changes .maxSessions (o := none) (by simp [filterMap_changes, Item.maxSessions])
    storeFile := get_changes .storeFile (o := none) (by simp [filterMap_changes, Item.storeFile])
    saveOnClose := get_changes .saveOnClose (o := none) (by simp [filterMap_changes, Item.saveOnClose])
    console := get_changes .console (o := none) (by simp [filterMap_changes, Item.console])
    toFile := by
      simp only [← value?_eq_some_iff, hon, logFile?]
      cases env.value? "SV_LOG_FILE" <;> simp
    file := by
      intro path hpath
      rw [hfile, logFile?, value?_eq_some_iff.2 hpath, Option.getD_some]
    noFile := by
      intro hno
      have hnone : env.logFile? = none :=
        Option.eq_none_iff_forall_ne_some.2 fun path hpath => hno path (value?_eq_some_iff.1 hpath)
      rw [hfile, hnone, Option.getD_none] }

/-- The file for the log is never the empty text, so that there is only the interval to find fault with. -/
theorem Describes.faults_eq_nil_iff {s : Settings} (h : env.Describes s) :
    s.faults = [] ↔ ∀ n, env.interval? = some n → 0 < n.toInt := by
  have hfile : s.log.toFile = true → s.log.file ≠ [] := by
    intro hon
    obtain ⟨path, hpath⟩ := h.toFile.1 hon
    rw [h.file path hpath]
    exact hpath.1
  rw [Settings.faults_eq_nil_iff, h.interval, and_iff_left hfile]
  cases env.interval? with
  | none => exact iff_of_true (by decide) (by simp)
  | some n => simp

theorem settings?_eq_some_iff {s : Settings} : env.settings? = some s ↔
    s = changeAll {} env.changes ∧ s.faults = [] := by
  unfold settings?
  rw [Option.ite_none_right_eq_some, Settings.isValid, List.isEmpty_iff, Option.some.injEq]
  constructor
  · rintro ⟨hvalid, rfl⟩
    exact ⟨rfl, hvalid⟩
  · rintro ⟨rfl, hvalid⟩
    exact ⟨hvalid, rfl⟩

theorem settings?_eq_none_iff :
    env.settings? = none ↔ ∃ n, env.interval? = some n ∧ n.toInt ≤ 0 := by
  simp only [Option.eq_none_iff_forall_ne_some, ne_eq, settings?_eq_some_iff, not_and, forall_eq,
    (describes_changes env).faults_eq_nil_iff, not_forall, Int.not_lt, exists_prop]

theorem interval?_update {raw : Option Text} :
    interval? (Function.update env "SV_LOG_LEVEL" raw) = env.interval? := by
  have hother : ("SV_VALIDATION_INTERVAL_MS" : Text) ≠ "SV_LOG_LEVEL" := by decide
  unfold interval? int? value?
  rw [Function.update_of_ne hother]

/-- **The configuration follows the environment.** For every environment: there is no configuration exactly
where an interval is read that is not positive. Otherwise it is one without faults, in which each of the
six things is what was read for it, or the default where nothing was read; the log goes to a file exactly
where one is named; and all else is as in the default. So a text for the interval that means nothing never
stands in the way, and no text for the level does. -/
theorem settings_follow_environment (env : Environment) :
    (env.settings? = none ↔ ∃ n, env.interval? = some n ∧ n.toInt ≤ 0) ∧
    (∀ s, env.settings? = some s → s.check = .ok () ∧ s.faults = [] ∧ env.Describes s) ∧
    (env.interval? = none → env.settings?.isSome = true) ∧
    ∀ raw, settings? (Function.update env "SV_LOG_LEVEL" raw) = none ↔ env.settings? = none := by
  refine ⟨settings?_eq_none_iff, fun s hs => ?_, fun hnone => ?_, fun raw => ?_⟩
  · obtain ⟨rfl, hfaults⟩ := settings?_eq_some_iff.1 hs
    exact ⟨if_pos hfaults, hfaults, describes_changes env⟩
  · rw [Option.isSome_iff_ne_none, ne_eq, settings?_eq_none_iff, hnone]
    simp
  · rw [settings?_eq_none_iff, settings?_eq_none_iff, interval?_update]

/-- All six variables are set; the level is none, and the interval no number. -/
theorem settings_follow_environment_beside_loud_level :
    ∃ env : Environment, env.Sets "SV_LOG_LEVEL" "loud" ∧ env.level? = none ∧
      env.Sets "SV_VALIDATION_INTERVAL_MS" "hourly" ∧ env.interval? = none ∧
      ∃ s, env.settings? = some s ∧ s.check = .ok () ∧ s.life.timeout = -1 ∧
        s.life.interval = 3600000 ∧ s.life.autoCreate = false ∧ s.life.sweeping = true ∧
        s.log.level = .warn ∧ s.log.toFile = true ∧ s.log.file = "sessions.log" := by
  let vars : List (Text × Text) := [("SV_SESSION_TIMEOUT_MS", " -1"),
    ("SV_VALIDATION_INTERVAL_MS", "hourly"), ("SV_AUTO_CREATE_WHEN_INVALID", "off"),
    ("SV_VALIDATION_SCHEDULER_ENABLED", "Yes"), ("SV_LOG_LEVEL", "loud"), ("SV_LOG_FILE", "sessions.log")]
  let env : Environment := fun name => vars.lookup name
  have htimeout : env.timeout? = some (-1) := by decide +kernel
  have hinterval : env.interval? = none := by decide +kernel
  have hcreate : env.autoCreate? = some false := by decide +kernel
  have hsweep : env.sweeping? = some true := by decide +kernel
  have hlevel : env.level? = none := by decide +kernel
  have hfile : env.Sets "SV_LOG_FILE" "sessions.log" := ⟨by decide, _, rfl, by decide⟩
  obtain ⟨_, hsome, hset, _⟩ := settings_follow_environment env
  obtain ⟨s, hs⟩ := Option.isSome_iff_exists.1 (hset hinterval)
  obtain ⟨hcheck, _, hmeans⟩ := hsome s hs
  refine ⟨env, ⟨by decide, _, rfl, by decide⟩, hlevel, ⟨by decide, _, rfl, by decide⟩, hinterval,
    s, hs, hcheck, ?_, ?_, ?_, ?_, ?_, hmeans.toFile.2 ⟨_, hfile⟩, hmeans.file _ hfile⟩
  · rw [hmeans.timeout, htimeout, Option.getD_some]
  · rw [hmeans.interval, hinterval, Option.getD_none]
  · rw [hmeans.autoCreate, hcreate, Option.getD_some]
  · rw [hmeans.sweeping, hsweep, Option.getD_some]
  · rw [hmeans.level, hlevel, Option.getD_none]

end Environment
end Sessions
