import StickArbiter.Station.Opening

/-!
# A station at work

The same sources, cycles and consumer, step by step as time passes: each step takes what the devices
have sent since the last one.
-/

namespace StickArbiter

inductive LiveSource
  /-- A gamepad, with the signals of a report that is not complete and its next tick. -/
  | gamepad (path : String) (intervalMs : Nat) (hasSwitches : Bool) (publisher : Gamepad.Publisher)
      (held : List Gamepad.Signal) (nextTick : Nat)
  /-- What is left of a replay, and how it will end. -/
  | replay (rest : List (Timed Sample)) (ending : Timed PlaybackEnding)
  | ended

structure LiveStep where
  source : LiveSource
  stimuli : List Stimulus := []
  log : List LogLine := []

namespace LiveSource

/-- A source from its start on. -/
def ofFeeder (clock : Nat → Instant) : Feeder → LiveSource
  | .gamepad d deadzone intervalMs hasSwitches =>
    .gamepad d.path intervalMs hasSwitches { deadzone := deadzone, hasSwitches := hasSwitches } [] 0
  | .replay r =>
    let p := r.play { clock := clock }
    .replay p.sent p.ending

def inputs (taken : List (Timed Gamepad.Taken)) : List Gamepad.Input :=
  taken.filterMap fun x => match x.what with
    | .input i => some i
    | .fault _ => none

def step (clock : Nat → Instant) (slot time : Nat) (arrivals : List Gamepad.Arrival) :
    LiveSource → LiveStep
  | .gamepad path intervalMs hasSwitches p held nextTick =>
    let isDue := nextTick ≤ time
    let sent := Gamepad.handedOn held (arrivals.map (Timed.mk time))
    let taken := sent ++ if isDue then [⟨time, .input .tick⟩] else []
    let r := Gamepad.Reading.of clock p taken
    let signals := arrivals.flatMap fun
      | .events es => es.map Gamepad.Event.signal
      | .fault _ => []
    { source :=
        if r.ending.isSome then .ended
        else .gamepad path intervalMs hasSwitches (p.after (inputs taken))
          (Gamepad.incomplete (held ++ signals)) (if isDue then nextTick + intervalMs else nextTick)
      stimuli := r.emissions.map (fun e => ⟨e.time, Feeder.emit slot e.what⟩) ++
        (r.ending.map fun e => Timed.mk e.time (Feeder.leave slot hasSwitches)).toList
      log := r.log path }
  | .replay rest ending =>
    let due := rest.takeWhile (·.time ≤ time)
    { source := if ending.time ≤ time then .ended else .replay (rest.drop due.length) ending
      stimuli := due.map fun x => ⟨time, fun b => b.sendInput slot (some x.what)⟩
      log := if ending.time ≤ time then [ending.what.line] else [] }
  | .ended => ⟨.ended, [], []⟩

def device? : LiveSource → Option String
  | .gamepad path _ _ _ _ _ => some path
  | .replay _ _ | .ended => none

end LiveSource

/-- A station at work. -/
structure Live where
  sources : List LiveSource
  schedule : Schedule
  desk : Desk

structure Stepped where
  live : Live
  log : List LogLine

namespace Live

/-- Takes what the cycles since the last step have sent. -/
def consume (l : Live) (c : Conditions) : Stepped :=
  let (desk, log) := Run.consume c l.desk l.schedule.history.reverse
  ⟨{ l with desk := desk, schedule := { l.schedule with history := [] } }, log.map Timed.what⟩

def start (s : Station) (c : Conditions) : Stepped :=
  let slots := s.settings.arbitration.slotCount
  let bus := (Bus.ofCount slots s.settings.parameters).fedBy s.feeders
  let a := Arbiter.create slots s.settings.parameters s.settings.pollInterval
  let desk : Desk :=
    { bus := Bus.ofCount 0 s.settings.parameters, journal := s.journal
      folder := s.settings.journal.directory }
  consume ⟨s.feeders.map (.ofFeeder c.clock), .start bus a c.clock, desk⟩ c

def change (l : Live) (f : Bus → Bus) : Live := { l with schedule := l.schedule.apply f }

def step (l : Live) (c : Conditions) (time : Nat) (arrivals : String → List Gamepad.Arrival) :
    Stepped :=
  let steps := l.sources.mapIdx fun slot s =>
    s.step c.clock slot time ((s.device?.map arrivals).getD [])
  let waited := l.schedule.advance c.clock time
  let fed := (steps.flatMap (·.stimuli)).foldl (fun s x => s.apply x.what) waited
  let next := consume ⟨steps.map (·.source), fed.wake c.clock time, l.desk⟩ c
  { next with log := steps.flatMap (·.log) ++ next.log }

end Live

end StickArbiter
