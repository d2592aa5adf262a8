import StickArbiter.Time

/-!
# Stick samples

What an input delivers: the four primary axes, when they were taken, where they come from and
whether the input itself thinks them usable. Axis values are taken as they come; nothing clamps
them.
-/

namespace StickArbiter

/-- Where a sample was taken. -/
inductive Source
  | unknown
  | rc
  /-- A companion computer or ground station, on one of its channels. -/
  | mavlink (channel : UInt8)
  | joystick
  | simulator
deriving DecidableEq, Repr, Inhabited

/-- Whether a source arrives over the companion link. -/
def Source.isMavlink : Source → Bool
  | .mavlink _ => true
  | _ => false

/-- Roll, pitch, throttle and yaw. Throttle runs from 0 to 1 and the others from -1 to 1. -/
structure Axes where
  x : Float32
  y : Float32
  z : Float32
  r : Float32
deriving DecidableEq

def Axes.zero : Axes := ⟨0, 0, 0, 0⟩

instance : Inhabited Axes := ⟨.zero⟩

structure Sample where
  axes : Axes
  timestamp : Instant
  source : Source := .unknown
  /-- Whether the input thinks the sample usable. -/
  valid : Bool := true
deriving DecidableEq, Inhabited

end StickArbiter
