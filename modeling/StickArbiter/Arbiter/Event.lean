import StickArbiter.Arbiter.Command
import StickArbiter.Arbiter.Parameters
import StickArbiter.Decimal.Layout
import StickArbiter.Log
import StickArbiter.Time.SpanText

/-!
# What an arbiter does

The calls an arbiter makes on its downlink, how they can fail, the counters it keeps, and the
events it logs.
-/

namespace StickArbiter

inductive TransportFault
  | noSubscribers
  | consumerGone
  | refused (reason : String)
deriving DecidableEq, Repr

def TransportFault.reason : TransportFault → String
  | .noSubscribers => "No setpoint subscribers"
  | .consumerGone => "Vehicle command consumer gone"
  | .refused reason => reason

def TransportFault.message (e : TransportFault) : String := "Transport error: " ++ e.reason

/-- Counts the cycles and the time between them. -/
structure CycleStatus where
  cycles : Nat := 0
  /-- When the latest cycle ran. -/
  lastCycle : Option Instant := none
  /-- The time between the two latest cycles. -/
  lastInterval : Option Span := none
  /-- The longest time between two cycles. -/
  maxInterval : Span := .zero
deriving DecidableEq, Repr, Inhabited

def CycleStatus.record (s : CycleStatus) (now : Instant) : CycleStatus :=
  let interval := s.lastCycle.map now.since
  { cycles := s.cycles + 1
    lastCycle := some now
    lastInterval := interval.or s.lastInterval
    maxInterval := s.maxInterval.longer (interval.getD .zero) }

inductive ArbiterEvent
  | parametersApplied (p : Parameters)
  | unknownSlot (slot : Nat)
  | switchesSeen (timestamp : Instant) (modeSlot : UInt8)
  | requestSent (arm : Bool)
  | requestFailed (arm : Bool) (e : TransportFault)
  | publishFailed (e : TransportFault)
  | selectionChanged (before after : Option Nat)
  | inputLost
  | lossNotPublished (e : TransportFault)
  | statusReport (s : CycleStatus) (slot : Option Nat) (valid : Bool)
deriving DecidableEq

namespace ArbiterEvent

def level : ArbiterEvent → Level
  | .parametersApplied _ | .unknownSlot _ | .publishFailed _ | .lossNotPublished _ => .debug
  | .switchesSeen _ _ => .trace
  | .requestSent _ | .selectionChanged _ _ | .statusReport _ _ _ => .info
  | .requestFailed _ _ | .inputLost => .warn

def origin : ArbiterEvent → String
  | .unknownSlot _ => "manual_control::selector"
  | _ => "manual_control::runner"

def action (arm : Bool) : String := if arm then "arm" else "disarm"

def text : ArbiterEvent → String
  | .parametersApplied p =>
    "Applying parameters: arm hysteresis " ++ p.armHysteresis.text ++ ", loss timeout "
      ++ p.lossTimeout.text ++ ", mode " ++ p.mode.label ++ ", override sensitivity "
      ++ Decimal.Layout.plain.float32 p.overrideSensitivity
  | .unknownSlot slot => "Ignoring sample for unknown slot " ++ toString slot
  | .switchesSeen t modeSlot =>
    "Switches sample at Timestamp(" ++ toString t.micros ++ ") (mode slot "
      ++ toString modeSlot.toNat ++ ")"
  | .requestSent arm => "Stick gesture: " ++ action arm ++ " request sent"
  | .requestFailed arm e => "Failed to send " ++ action arm ++ " request: " ++ e.message
  | .publishFailed e => "Failed to publish setpoint: " ++ e.message
  | .selectionChanged before after =>
    "selected manual_control_input changed " ++ LogLine.optionText toString before ++ " -> "
      ++ LogLine.optionText toString after
  | .inputLost => "No valid manual control input, publishing failsafe setpoint"
  | .lossNotPublished e => "Failed to publish invalid setpoint: " ++ e.message
  | .statusReport s slot valid =>
    toString s.cycles ++ " cycles, last interval " ++ LogLine.optionText Span.text s.lastInterval
      ++ ", max interval " ++ s.maxInterval.text ++ ", selected input "
      ++ LogLine.optionText toString slot ++ ", valid " ++ toString valid

def line (e : ArbiterEvent) : LogLine := ⟨e.level, e.origin, e.text⟩

end ArbiterEvent

end StickArbiter
