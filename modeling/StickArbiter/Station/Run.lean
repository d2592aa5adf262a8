import StickArbiter.Station.Consumer
import StickArbiter.Station.Sources

/-!
# Running a station

A running station is its sources, its arbiter and the consumer of its output, all on one clock of
milliseconds. Sources do not depend on the arbiter, so what they send is known before the cycles
are run; the consumer takes all that a cycle sends before the next one.
-/

namespace StickArbiter

/-- What a running station meets. -/
structure Conditions where
  /-- What the clock shows at each millisecond. -/
  clock : Nat → Instant
  /-- The date and the time at each millisecond. -/
  calendar : Nat → Moment
  deliveries : Feeder.Deliveries := fun _ => []
  /-- What happens to the desk from outside once the first cycle's output is taken. -/
  meddling : Desk → Desk := id
  /-- When the run ends, in milliseconds. -/
  stop : Nat

structure Run where
  schedule : Schedule
  desk : Desk
  log : List (Timed LogLine)

namespace Run

/-- The desk after some cycles, and what was logged meanwhile. -/
def consume (c : Conditions) : Desk → List (Timed Outcome) → Desk × List (Timed LogLine)
  | d, [] => (d, [])
  | d, x :: xs =>
    let d := { d with log := [] }.receive (c.calendar x.time) x.what.calls
    let lines := x.what.log.map ArbiterEvent.line ++ d.log
    let (d, log) := consume c d xs
    (d, lines.map (Timed.mk x.time) ++ log)

/-- The desk after all cycles, and what was logged meanwhile. -/
def consumeAll (c : Conditions) (d : Desk) : List (Timed Outcome) → Desk × List (Timed LogLine)
  | [] => (d, [])
  | x :: xs =>
    let (d, first) := consume c d [x]
    let (d, log) := consume c (c.meddling d) xs
    (d, first ++ log)

def cycles (s : Settings) (feeders : List Feeder) (c : Conditions) : Schedule :=
  let slots := s.arbitration.slotCount
  let bus := (Bus.ofCount slots s.parameters).fedBy feeders
  (Schedule.start bus (.create slots s.parameters s.pollInterval) c.clock).runUntil c.clock
    (Feeder.allStimuli c.clock c.deliveries c.stop feeders) c.stop

def of (s : Settings) (feeders : List Feeder) (journal : Option Journal) (c : Conditions) : Run :=
  let done := cycles s feeders c
  let desk : Desk :=
    { bus := Bus.ofCount 0 s.parameters, journal := journal, folder := s.journal.directory }
  let (desk, log) := consumeAll c desk done.history.reverse
  let sources := feeders.map (Feeder.log c.clock c.deliveries c.stop)
  { schedule := done, desk := desk, log := sources.foldr Timeline.merge log }

end Run

def Settings.journalIn (s : Settings) (folder : Folder) : Option Journal :=
  if s.journal.enabled then
    some (.create folder s.journal.recordsPerFile s.journal.filesKept)
  else none

end StickArbiter
