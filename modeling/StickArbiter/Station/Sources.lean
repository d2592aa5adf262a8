import StickArbiter.Bus.Schedule
import StickArbiter.Disk.Folder
import StickArbiter.Gamepad.Reading
import StickArbiter.Recording.Playback
import StickArbiter.Settings.Basic

/-!
# Sources

The sources of the settings are started in their order, and each feeds the slot of its place. The
first that cannot be started ends the start-up. The first gamepad also gives the switches.
-/

namespace StickArbiter

/-- What sources are started from. -/
structure Surroundings where
  devices : Gamepad.Devices
  /-- The bytes of the file at a path. -/
  read : String → Except IoFault (List UInt8)
  /-- The folder at a path, which is made if it is missing. -/
  folder : String → Except IoFault Folder := fun _ => .ok {}

inductive Feeder
  | gamepad (device : Gamepad.Device) (deadzone : Float32) (intervalMs : Nat) (hasSwitches : Bool)
  | replay (r : Recording)
deriving DecidableEq

/-- What came of starting sources: those started, each on the slot of its place. -/
structure Startup where
  started : List Feeder := []
  log : List LogLine := []
  /-- Why the next one could not be started. -/
  fault : Option Fault := none

namespace Feeder

def origin : String := "manual_control::sources"

def startGamepad (w : Surroundings) (slot : Nat) (s : SourceSettings) (hasSwitches : Bool) :
    Startup :=
  let search := w.devices.openDevice s.devicePath
  let log := search.log.map Gamepad.SearchEvent.line
  match search.result with
  | .error f => { log := log, fault := some (.gamepad f) }
  | .ok d =>
    let log := log ++ [⟨.info, origin, "Slot " ++ toString slot ++ ": joystick at " ++ d.path⟩]
    match d.checkStream with
    | .error f => { log := log, fault := some (.gamepad f) }
    | .ok () =>
      { started := [.gamepad d s.deadzone s.republishIntervalMs hasSwitches], log := log }

def startReplay (w : Surroundings) (slot : Nat) (s : SourceSettings) : Startup :=
  match w.read s.path with
  | .error f => { fault := some (.io f) }
  | .ok bytes => match Recording.ofBytes bytes with
    | .error f => { fault := some f }
    | .ok r =>
      { started := [.replay r]
        log := [⟨.info, origin, "Slot " ++ toString slot ++ ": replaying "
          ++ toString r.samples.length ++ " samples from " ++ s.path⟩] }

/-- Starts sources on the slots from `slot` on. -/
def startFrom (w : Surroundings) : Nat → Bool → List SourceSettings → Startup
  | _, _, [] => {}
  | slot, hasSwitches, s :: rest =>
    let first := match s.kind with
      | .joystick => startGamepad w slot s hasSwitches
      | .replay => startReplay w slot s
    match first.fault with
    | some _ => first
    | none =>
      let others := startFrom w (slot + 1) (hasSwitches && s.kind ≠ .joystick) rest
      { others with started := first.started ++ others.started, log := first.log ++ others.log }

def startAll (w : Surroundings) (slots : Nat) (sources : List SourceSettings) : Startup :=
  startFrom w 0 true (sources.take slots)

/-! ## What sources do to the bus -/

/-- What all devices send, by path. -/
abbrev Deliveries := String → List (Timed Gamepad.Arrival)

/-- The reading of a gamepad, as long as anybody takes its samples. -/
def reading (clock : Nat → Instant) (deliveries : Deliveries) (stop : Nat) (d : Gamepad.Device)
    (deadzone : Float32) (intervalMs : Nat) (hasSwitches : Bool) : Gamepad.Reading :=
  .of clock { deadzone := deadzone, hasSwitches := hasSwitches }
    (Gamepad.Rhythm.timeline ⟨intervalMs, stop⟩ (Gamepad.handedOn [] (deliveries d.path)))

/-- How an emission changes the bus. -/
def emit (slot : Nat) (e : Gamepad.Emission) (b : Bus) : Bus :=
  let b := match e.switches with
    | some s => b.sendSwitches (some s)
    | none => b
  match e.sample with
  | some s => b.sendInput slot (some s)
  | none => b

/-- How the end of a gamepad's reader changes the bus. -/
def leave (slot : Nat) (hasSwitches : Bool) (b : Bus) : Bus :=
  let b := b.updateInput slot (·.closeSender)
  if hasSwitches then { b with switches := b.switches.closeSender } else b

/-- What a source does to the bus until `stop`. -/
def stimuli (clock : Nat → Instant) (deliveries : Deliveries) (stop slot : Nat) :
    Feeder → List Stimulus
  | .gamepad d deadzone intervalMs hasSwitches =>
    let r := reading clock deliveries stop d deadzone intervalMs hasSwitches
    r.emissions.map (fun e => ⟨e.time, emit slot e.what⟩) ++
      (r.ending.map fun e => Timed.mk e.time (leave slot hasSwitches)).toList
  | .replay r =>
    (r.play { clock := clock }).sent.map fun x =>
      ⟨x.time, fun b => b.sendInput slot (some x.what)⟩

/-- What a source logs until `stop`, with the times. -/
def log (clock : Nat → Instant) (deliveries : Deliveries) (stop : Nat) :
    Feeder → List (Timed LogLine)
  | .gamepad d deadzone intervalMs hasSwitches =>
    let r := reading clock deliveries stop d deadzone intervalMs hasSwitches
    ((r.ending.map fun e => Timed.mk e.time (e.what.line d.path)).toList).filter (·.time < stop)
  | .replay r =>
    let ending := (r.play { clock := clock }).ending
    [Timed.mk ending.time ending.what.line].filter (·.time < stop)

def givesSwitches : Feeder → Bool
  | .gamepad _ _ _ hasSwitches => hasSwitches
  | .replay _ => false

end Feeder

/-- A bus without the senders that no source has taken. -/
def Bus.fedBy (b : Bus) (feeders : List Feeder) : Bus :=
  { b with
    inputs := b.inputs.mapIdx fun slot c => if slot < feeders.length then c else c.closeSender
    switches := if feeders.any Feeder.givesSwitches then b.switches else b.switches.closeSender }

/-- What all sources do to the bus until `stop`. -/
def Feeder.allStimuli (clock : Nat → Instant) (deliveries : Deliveries) (stop : Nat)
    (feeders : List Feeder) : List Stimulus :=
  (feeders.mapIdx fun slot f => f.stimuli clock deliveries stop slot).foldr Timeline.merge []

end StickArbiter
