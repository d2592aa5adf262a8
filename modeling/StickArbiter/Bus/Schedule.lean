import StickArbiter.Bus.Basic
import StickArbiter.Time.Timeline

/-!
# When cycles run

Cycles follow one another on a clock of milliseconds: the first runs at once, and each next one when
a channel that the last one watches has something new, or its poll interval is over. What is sent on
the bus meanwhile is given as changes at times.
-/

namespace StickArbiter

structure Schedule where
  bus : Bus
  arbiter : Arbiter
  wakeup : Wakeup
  /-- When the next cycle runs at the latest. -/
  deadline : Nat
  /-- The cycles so far, the latest first. -/
  history : List (Timed Outcome) := []

abbrev Stimulus := Timed (Bus → Bus)

namespace Schedule

/-- Runs a cycle. The clock shows an instant at each millisecond. -/
def cycleAt (s : Schedule) (clock : Nat → Instant) (time : Nat) : Schedule :=
  let (bus, o) := s.bus.cycle s.arbiter (clock time)
  { bus := bus
    arbiter := o.arbiter
    wakeup := o.wakeup
    deadline := time + o.wakeup.timeout.millisCeil
    history := ⟨time, o⟩ :: s.history }

def start (bus : Bus) (a : Arbiter) (clock : Nat → Instant) : Schedule :=
  cycleAt ⟨bus, a, { timeout := .zero }, 0, []⟩ clock 0

/-- Runs the cycles that are due before a time. The fuel bounds their number. -/
def idleUntil (clock : Nat → Instant) (time : Nat) : Nat → Schedule → Schedule
  | 0, s => s
  | n + 1, s =>
    if s.deadline < time then idleUntil clock time n (s.cycleAt clock s.deadline) else s

/-- Lets time pass up to `time`, without what happens then. -/
def advance (s : Schedule) (clock : Nat → Instant) (time : Nat) : Schedule :=
  idleUntil clock time (time - s.deadline) s

/-- Runs a cycle if something watched is new. -/
def wake (s : Schedule) (clock : Nat → Instant) (time : Nat) : Schedule :=
  if s.bus.wakes s.wakeup then s.cycleAt clock time else s

def apply (s : Schedule) (change : Bus → Bus) : Schedule := { s with bus := change s.bus }

/-- Lets changes happen, in the order of their times; those at one time happen together. -/
def run (clock : Nat → Instant) : List Stimulus → Schedule → Schedule
  | [], s => s
  | x :: xs, s =>
    let s := (s.advance clock x.time).apply x.what
    match xs with
    | [] => s.wake clock x.time
    | y :: _ => run clock xs (if y.time = x.time then s else s.wake clock x.time)

/-- Lets the changes before `stop` happen and runs all cycles before it. -/
def runUntil (s : Schedule) (clock : Nat → Instant) (stimuli : List Stimulus) (stop : Nat) :
    Schedule :=
  (run clock (stimuli.filter (·.time < stop)) s).advance clock stop

/-- The bus after the changes at time 0, for a schedule that starts once they have happened. -/
def primed (bus : Bus) (stimuli : List Stimulus) : Bus :=
  (stimuli.takeWhile (·.time = 0)).foldl (fun b x => x.what b) bus

/-- The sends of all cycles with their times, in order. -/
def calls (s : Schedule) : List (Nat × Call) :=
  s.history.reverse.flatMap fun t => t.what.calls.map (t.time, ·)

end Schedule

end StickArbiter
