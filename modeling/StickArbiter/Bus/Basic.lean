import StickArbiter.Arbiter.Cycle
import StickArbiter.Bus.Latest

/-!
# The bus

The channels between the inputs, the arbiter and those who use its output. Samples, switches,
parameters and setpoints are held as latest values only; commands queue.
-/

namespace StickArbiter

structure Bus where
  /-- One channel for each slot. -/
  inputs : List (Latest (Option Sample))
  switches : Latest (Option Switches) := .holding none
  parameters : Latest Parameters
  setpoints : Latest Setpoint := .holding .invalid
  /-- Commands sent and not yet taken, the oldest first. -/
  commands : List Command := []
  /-- Whether anybody takes commands. -/
  hasConsumer : Bool := true
deriving DecidableEq

namespace Bus

/-- A bus for `count` slots. The parameters given count as known. -/
def ofCount (count : Nat) (p : Parameters) : Bus :=
  { inputs := List.replicate count (.holding none), parameters := .holding p }

/-- Changes the channel of a slot, if there is one. -/
def updateInput (b : Bus) (slot : Nat) (f : Latest (Option Sample) → Latest (Option Sample)) :
    Bus :=
  { b with inputs := b.inputs.modify slot f }

def sendInput (b : Bus) (slot : Nat) (x : Option Sample) : Bus := b.updateInput slot (·.send x)

def sendSwitches (b : Bus) (s : Option Switches) : Bus :=
  { b with switches := b.switches.send s }

def sendParameters (b : Bus) (p : Parameters) : Bus :=
  { b with parameters := b.parameters.send p }

/-! ## The arbiter's side -/

def pollInput? (b : Bus) (slot : Nat) : Option Sample := b.inputs[slot]?.bind (·.poll?.join)

def pollSwitches? (b : Bus) : Option Switches := b.switches.poll?.join

def pollParameters? (b : Bus) : Option Parameters := b.parameters.poll?

def feed (b : Bus) (now : Instant) : Feed :=
  { now := now
    parameters := b.pollParameters?
    sample := b.pollInput?
    switches := b.pollSwitches? }

/-- The bus after a cycle has polled the parameters, the switches and the first `count` slots. -/
def polled (b : Bus) (count : Nat) : Bus :=
  { b with
    inputs := b.inputs.mapIdx fun slot c => if slot < count then c.polled else c
    switches := b.switches.polled
    parameters := b.parameters.polled }

def publishFault? (b : Bus) : Option TransportFault :=
  if b.setpoints.hasReader then none else some .noSubscribers

def commandFault? (b : Bus) : Option TransportFault :=
  if b.hasConsumer then none else some .consumerGone

def downlink (b : Bus) : Downlink :=
  { command := fun _ => b.commandFault?, publish := fun _ => b.publishFault? }

def carry (b : Bus) : Call → Bus
  | .command c => if b.hasConsumer then { b with commands := b.commands ++ [c] } else b
  | .publish sp => { b with setpoints := b.setpoints.send sp }

def cycle (b : Bus) (a : Arbiter) (now : Instant) : Bus × Outcome :=
  let o := a.cycle (b.feed now) b.downlink
  (o.calls.foldl carry (b.polled a.selector.slotCount), o)

/-! ## Waiting -/

/-- Whether a wait ends at once: a channel that it watches holds a value not yet taken. -/
def wakes (b : Bus) (w : Wakeup) : Bool :=
  (w.onInput.bind (b.inputs[·]?)).any Latest.isFresh || (w.onSwitches && b.switches.isFresh)

/-- How many milliseconds a wait lasts if nothing is sent meanwhile. -/
def waitMillis (b : Bus) (w : Wakeup) : Nat := if b.wakes w then 0 else w.timeout.millisCeil

end Bus

end StickArbiter
