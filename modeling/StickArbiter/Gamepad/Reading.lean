import StickArbiter.Disk.Fault
import StickArbiter.Gamepad.Publisher
import StickArbiter.Log
import StickArbiter.Time.Timeline

/-!
# Reading a gamepad

A reader takes what its device sends and the ticks of its timer in the order in which they come. It
stops at a fault of the device, or at the first report or tick after which it finds that nobody
takes its samples any more.
-/

namespace StickArbiter.Gamepad

/-- What a device sends. -/
inductive Arrival
  /-- Events that come together. -/
  | events (es : List Event)
  | fault (f : IoFault)
deriving DecidableEq

inductive Taken
  | input (i : Input)
  | fault (f : IoFault)
deriving DecidableEq

inductive Ending
  | fault (f : IoFault)
  | unheard
deriving DecidableEq

namespace Ending

def origin : String := "manual_control::sources::joystick"

/-- What a reader logs about its end. -/
def line (device : String) : Ending → LogLine
  | .fault f => ⟨.warn, origin, "Joystick " ++ device ++ " stopped: " ++ f.message⟩
  | .unheard => ⟨.debug, origin, "Bus closed, stopping joystick " ++ device⟩

end Ending

/-- What came of reading. -/
structure Reading where
  emissions : List (Timed Emission) := []
  /-- When and why the reader stopped, if it did. -/
  ending : Option (Timed Ending) := none
deriving DecidableEq

namespace Reading

/-- A reading that begins with an emission. -/
def cons (e : Timed Emission) (r : Reading) : Reading := { r with emissions := e :: r.emissions }

/-- Takes what comes, one after another. The clock shows an instant at each millisecond. -/
def of (clock : Nat → Instant) (p : Publisher) : List (Timed Taken) → Reading
  | [] => {}
  | x :: xs =>
    match x.what with
    | .fault f => { ending := some ⟨x.time, .fault f⟩ }
    | .input i =>
      let e := p.emits (clock x.time) i
      if e.goesOn then cons ⟨x.time, e⟩ (of clock (p.next i) xs)
      else { emissions := [⟨x.time, e⟩], ending := some ⟨x.time, .unheard⟩ }

def samples (r : Reading) : List (Timed Sample) :=
  r.emissions.filterMap fun e => e.what.sample.map (Timed.mk e.time)

def switches (r : Reading) : List (Timed Switches) :=
  r.emissions.filterMap fun e => e.what.switches.map (Timed.mk e.time)

def log (r : Reading) (device : String) : List LogLine :=
  (r.ending.map fun e => e.what.line device).toList

end Reading

/-! ## What there is to take -/

/-- Signals up to the last report. -/
def complete (ss : List Signal) : List Signal := (ss.reverse.dropWhile (· ≠ .report)).reverse

/-- Signals after the last report. -/
def incomplete (ss : List Signal) : List Signal := (ss.reverse.takeWhile (· ≠ .report)).reverse

theorem complete_append_incomplete (ss : List Signal) : complete ss ++ incomplete ss = ss := by
  rw [complete, incomplete, ← List.reverse_append, List.takeWhile_append_dropWhile,
    List.reverse_reverse]

/-- What a reader takes of arrivals whose reports are handed on only when they are complete. -/
def handedOn (held : List Signal) : List (Timed Arrival) → List (Timed Taken)
  | [] => []
  | x :: xs =>
    match x.what with
    | .fault f => ⟨x.time, .fault f⟩ :: handedOn held xs
    | .events es =>
      let signals := held ++ es.map Event.signal
      (complete signals).map (fun s => ⟨x.time, .input (.signal s)⟩) ++
        handedOn (incomplete signals) xs

/-- What a reader takes of arrivals whose events are handed on one by one. -/
def handedOnAtOnce (xs : List (Timed Arrival)) : List (Timed Taken) :=
  xs.flatMap fun x => match x.what with
    | .fault f => [⟨x.time, .fault f⟩]
    | .events es => es.map fun e => ⟨x.time, .input (.signal e.signal)⟩

/-- When samples are published again, and for how long anybody takes them. -/
structure Rhythm where
  /-- Milliseconds between two ticks of the timer. -/
  interval : Nat
  /-- When the one who takes the samples leaves, in milliseconds. -/
  stop : Nat
deriving DecidableEq, Repr

/-- All ticks up to the first one that finds nobody there. -/
def Rhythm.ticks (r : Rhythm) : List (Timed Taken) :=
  (Timeline.ticks r.interval (r.stop + r.interval)).map (⟨·, .input .tick⟩)

/-- All that a reader takes. -/
def Rhythm.timeline (r : Rhythm) (device : List (Timed Taken)) : List (Timed Taken) :=
  Timeline.merge (Timeline.merge device [⟨r.stop, .input .close⟩]) r.ticks

end StickArbiter.Gamepad
