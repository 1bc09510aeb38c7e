import Mathlib.Tactic.Common

/-!
# Timers

A `time.Timer` of Go: once its time has come, a timer that was started sends a value to its channel, which has room
for one. `Stop` does not take a value out of the channel, and `Reset` does not either, so a timer that is used again
is stopped, and what it may have sent is received, before it is reset (`restart`). The receive blocks for ever on a
timer that is neither running nor has sent.

* `restart_started`: the idiom on a timer that was started, whether its time has come or not.
-/

namespace Smartdoge.Lib

/-- When the timer fires, if it was started, and whether what it sent before is still in the channel. -/
structure Timer where
  expiry : Option ℕ
  sent : Bool
deriving DecidableEq

namespace Timer

/-- `time.NewTimer(d)`. -/
def start (now d : ℕ) : Timer := ⟨some (now + d), false⟩

def fired (t : Timer) (now : ℕ) : Bool := t.expiry.any (· ≤ now)

/-- There is a value in the channel. -/
def ready (t : Timer) (now : ℕ) : Bool := t.sent || t.fired now

/-- The timer at a time: one that fired has sent, unless the channel was full. -/
def settle (t : Timer) (now : ℕ) : Timer := if t.fired now then ⟨none, true⟩ else t

/-- `t.Stop()`: whether the timer was running. -/
def stop (t : Timer) (now : ℕ) : Bool × Timer :=
  ((t.settle now).expiry.isSome, { t.settle now with expiry := none })

/-- `<-t.C`; `none` if it blocks and nothing will be sent. -/
def receive (t : Timer) (now : ℕ) : Option Timer :=
  if (t.settle now).sent then some { t.settle now with sent := false } else none

/-- `t.Reset(d)`. -/
def reset (t : Timer) (now d : ℕ) : Timer := { t.settle now with expiry := some (now + d) }

/-- `if !t.Stop() { <-t.C }; t.Reset(d)`. -/
def restart (t : Timer) (now d : ℕ) : Option Timer :=
  let (running, stopped) := t.stop now
  let drained := if running then some stopped else stopped.receive now
  drained.map fun t => t.reset now d

/-- **A timer that was started is started again**, and nothing is left in its channel. -/
theorem restart_started (since period now d : ℕ) : (start since period).restart now d = some (start now d) := by
  by_cases hfired : since + period ≤ now
  · simp [restart, stop, receive, reset, settle, fired, start, hfired]
  · simp [restart, stop, reset, settle, fired, start, hfired]

/-- A timer that was started is ready after its period. -/
theorem ready_start (since period now : ℕ) : (start since period).ready now = true ↔ since + period ≤ now := by
  simp [ready, fired, start]

end Timer

end Smartdoge.Lib
