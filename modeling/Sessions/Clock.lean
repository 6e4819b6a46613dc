import Sessions.Calendar

/-!
# Sessions.Clock

A clock is the readings that it will give, one after the other. They may do anything, also go
backwards; the clocks made here stand still or move by a fixed step with every reading.

* `Clock.now` is the next reading, `Clock.read` takes it.
* `Clock.advance`, `Clock.setTo` and `Clock.tick` change the readings to come; `now_advance`,
  `now_setTo` and `now_tick` say how the next one changes.
-/

namespace Sessions

structure Clock where
  /-- How the clock runs, reading by reading. -/
  course : Nat → Timestamp
  reads : Nat
  /-- What is added to every reading of the course. -/
  offset : Timestamp

namespace Clock

def still (t : Timestamp) : Clock := ⟨fun _ => 0, 0, t⟩

def now (c : Clock) : Timestamp := c.course c.reads + c.offset

def read (c : Clock) : Timestamp × Clock := (c.now, { c with reads := c.reads + 1 })

/-- Move the readings to come; they wrap around at `2 ^ 64`. -/
def advance (c : Clock) (d : Timestamp) : Clock := { c with offset := c.offset + d }

/-- Move the readings to come so that the next one is the given time. -/
def setTo (c : Clock) (t : Timestamp) : Clock := { c with offset := t - c.course c.reads }

/-- From now on move by a step with every reading. -/
def tick (c : Clock) (step : Timestamp) : Clock := ⟨fun n => step * n.toUInt64, 0, c.now⟩

@[simp] theorem now_still (t : Timestamp) : (still t).now = t := by simp [still, now]

@[simp] theorem now_advance (c : Clock) (d : Timestamp) : (c.advance d).now = c.now + d := by
  simp [advance, now, UInt64.add_assoc]

@[simp] theorem now_setTo (c : Clock) (t : Timestamp) : (c.setTo t).now = t := by
  simp only [setTo, now]
  rw [UInt64.add_comm]
  exact UInt64.sub_add_cancel _ _

@[simp] theorem now_tick (c : Clock) (step : Timestamp) : (c.tick step).now = c.now := by
  simp [tick, now]

end Clock
end Sessions
