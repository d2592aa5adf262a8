import StickArbiter.Time

/-!
# Vehicle commands

A confirmed stick gesture asks the vehicle to arm or to disarm. The request is a command with one
parameter, 1 for arming and 0 for disarming; a parameter above one half is read as arming.
-/

namespace StickArbiter

inductive CommandKind
  | armDisarm
deriving DecidableEq, Repr

/-- The number by which vehicles know a command. -/
def CommandKind.id : CommandKind → Nat
  | .armDisarm => 400

/-- What made the station send a command. -/
inductive CommandOrigin
  | stickGesture
deriving DecidableEq, Repr

structure Command where
  kind : CommandKind := .armDisarm
  param : Float32
  origin : CommandOrigin := .stickGesture
  targetSystem : UInt8 := 1
  targetComponent : UInt8 := 1
  timestamp : Instant
deriving DecidableEq

namespace Command

def request (arm : Bool) (t : Instant) : Command :=
  { param := if arm then 1 else 0, timestamp := t }

def isArm (c : Command) : Bool := 0.5 < c.param

theorem isArm_request (arm : Bool) (t : Instant) : (request arm t).isArm = arm := by
  cases arm
  · show decide ((0.5 : Float32) < 0) = false
    decide +kernel
  · show decide ((0.5 : Float32) < 1) = true
    decide +kernel

end Command

end StickArbiter
