import StickArbiter.Input.Sample

/-!
# The setpoint

The one control setpoint composed from all inputs. Without a live input it is invalid and keeps the
values it had.
-/

namespace StickArbiter

/-- What the vehicle's controllers are given. -/
structure Setpoint where
  timestamp : Instant := .zero
  axes : Axes := .zero
  valid : Bool := false
  source : Source := .unknown
  armGesture : Bool := false
  disarmGesture : Bool := false
  userOverride : Bool := false
  /-- The slot it was taken from. -/
  slot : Option Nat := none
deriving DecidableEq, Inhabited

def Setpoint.invalid : Setpoint := {}

end StickArbiter
