import StickArbiter.Arbiter.Event
import StickArbiter.Arbiter.Selector
import StickArbiter.Gesture.Detector
import StickArbiter.Gesture.Takeover
import StickArbiter.Input.Switches

/-!
# The arbiter's cycle

A cycle takes what is new, selects a slot, and either publishes a valid setpoint, after requests for
the gestures that it confirms, or announces once that the input is lost. It never waits: how its
sends end is part of what it is given, and a failed send is logged and not repeated.
-/

namespace StickArbiter

/-- Whether the loss of input has been announced. -/
inductive Phase
  /-- The last cycle was valid, or there was none. -/
  | tracking
  /-- An invalid setpoint was sent; nothing more is said until the input returns. -/
  | lossAnnounced
deriving DecidableEq, Repr, Inhabited

structure Wakeup where
  /-- The slot whose next sample should start a cycle. -/
  onInput : Option Nat := none
  /-- Whether new switches should start one too. -/
  onSwitches : Bool := false
  /-- The longest time to wait. -/
  timeout : Span
deriving DecidableEq, Repr

/-- What one cycle is offered. -/
structure Feed where
  now : Instant
  parameters : Option Parameters := none
  /-- The new sample of a slot, if there is one. -/
  sample : Nat → Option Sample := fun _ => none
  switches : Option Switches := none

/-- How sends end: with a fault, or without one. -/
structure Downlink where
  command : Command → Option TransportFault := fun _ => none
  publish : Setpoint → Option TransportFault := fun _ => none

def Downlink.open : Downlink := {}

inductive Call
  | command (c : Command)
  | publish (sp : Setpoint)
deriving DecidableEq

/-- One arbiter: what it knows of its inputs and what it remembers of its cycles. -/
structure Arbiter where
  selector : Selector
  gestures : GestureDetector := {}
  takeover : TakeoverDetector := {}
  parameters : Parameters := {}
  pollInterval : Span := defaultPollInterval
  phase : Phase := .tracking
  /-- The slot of the last cycle, if that was valid. -/
  lastSelected : Option Nat := none
  status : CycleStatus := {}
deriving DecidableEq

structure Outcome where
  arbiter : Arbiter
  calls : List Call
  wakeup : Wakeup
  log : List ArbiterEvent

/-- What delivering a sample logs: nothing, unless there is no such slot. -/
def Selector.deliveryLog (s : Selector) (slot : Nat) : List ArbiterEvent :=
  if slot < s.slotCount then [] else [.unknownSlot slot]

namespace Arbiter

/-- Puts parameters into effect. What a gesture has waited so far is kept. -/
def applyParameters (a : Arbiter) (p : Parameters) : Arbiter :=
  { a with
    gestures := a.gestures.setDelay p.armHysteresis
    selector := { a.selector with mode := p.mode, timeout := p.lossTimeout }
    parameters := p }

def create (count : Nat) (p : Parameters) (pollInterval : Span) : Arbiter :=
  applyParameters
    { selector := .ofCount count, parameters := p, pollInterval := pollInterval } p

def setpoint (a : Arbiter) : Setpoint := a.selector.setpoint

def statusReport (a : Arbiter) : ArbiterEvent :=
  .statusReport a.status a.selector.selected a.setpoint.valid

/-! ## Taking what is new -/

/-- Gives the selector the new samples of some slots, one after another. -/
def deliverFrom (s : Selector) (now : Instant) (sample : Nat → Option Sample) (slots : List Nat) :
    Selector :=
  slots.foldl (fun s slot => match sample slot with
    | some x => s.deliver now slot x
    | none => s) s

/-- Gives the selector all new samples, or lets it select anew if there is none. -/
def deliverAll (s : Selector) (now : Instant) (sample : Nat → Option Sample) : Selector :=
  let slots := List.range s.slotCount
  if slots.any fun slot => (sample slot).isSome then deliverFrom s now sample slots
  else s.select now

/-- Counts the cycle and puts new parameters into effect. -/
def begin (a : Arbiter) (f : Feed) : Arbiter :=
  let a := { a with status := a.status.record f.now }
  match f.parameters with
  | some p => a.applyParameters p
  | none => a

/-- The arbiter once it has taken all that is new and selected a slot. -/
def observe (a : Arbiter) (f : Feed) : Arbiter :=
  let a := a.begin f
  { a with selector := deliverAll a.selector f.now f.sample }

/-! ## Publishing -/

/-- What the present sample shows. -/
def gestureReport (a : Arbiter) : GestureReport :=
  a.gestures.report a.setpoint.axes a.setpoint.timestamp

/-- The valid setpoint of a cycle: gestures are timed by the sample's own stamp, and the setpoint
then bears the cycle's. -/
def composed (a : Arbiter) (now : Instant) : Setpoint :=
  let report := a.gestureReport
  { a.setpoint with
    armGesture := report.arm
    disarmGesture := report.disarm
    userOverride := a.takeover.shows a.setpoint.axes a.parameters.overrideSensitivity
    timestamp := now }

def requests (report : GestureReport) : List Bool :=
  (if report.armRequested then [true] else []) ++ (if report.disarmRequested then [false] else [])

def requestEvent (d : Downlink) (now : Instant) (arm : Bool) : ArbiterEvent :=
  match d.command (.request arm now) with
  | none => .requestSent arm
  | some e => .requestFailed arm e

/-- A cycle with a live slot. -/
def publishValid (a : Arbiter) (f : Feed) (d : Downlink) : Outcome :=
  let sp := a.composed f.now
  let requests := requests a.gestureReport
  let switchesLog := match f.switches with
    | some s => if sp.source = .rc then [ArbiterEvent.switchesSeen s.timestamp s.modeSlot] else []
    | none => []
  let publishLog := match d.publish sp with
    | some e => [ArbiterEvent.publishFailed e]
    | none => []
  let changeLog :=
    if a.lastSelected = sp.slot then [] else [ArbiterEvent.selectionChanged a.lastSelected sp.slot]
  { arbiter :=
      { a with
        phase := .tracking
        gestures := a.gestures.feed a.setpoint.axes a.setpoint.timestamp
        takeover := a.takeover.feed a.setpoint.axes
        selector := { a.selector with setpoint := sp }
        lastSelected := sp.slot }
    calls := requests.map (fun arm => .command (.request arm f.now)) ++ [.publish sp]
    wakeup := { onInput := sp.slot, onSwitches := true, timeout := a.pollInterval }
    log := switchesLog ++ requests.map (requestEvent d f.now) ++ publishLog ++ changeLog }

/-- A cycle without a live slot. -/
def handleInvalid (a : Arbiter) (d : Downlink) : Outcome :=
  let lost := { a with lastSelected := none, takeover := a.takeover.reset }
  let wakeup : Wakeup := { timeout := a.pollInterval }
  match a.phase with
  | .lossAnnounced => ⟨lost, [], wakeup, []⟩
  | .tracking =>
    let publishLog := match d.publish a.setpoint with
      | some e => [ArbiterEvent.lossNotPublished e]
      | none => []
    ⟨{ lost with phase := .lossAnnounced }, [.publish a.setpoint], wakeup,
      .inputLost :: publishLog⟩

def parametersLog (f : Feed) : List ArbiterEvent :=
  match f.parameters with
  | some p => [.parametersApplied p]
  | none => []

def cycle (a : Arbiter) (f : Feed) (d : Downlink) : Outcome :=
  let seen := a.observe f
  let o := if seen.setpoint.valid then seen.publishValid f d else seen.handleInvalid d
  { o with log := parametersLog f ++ o.log }

end Arbiter

end StickArbiter
