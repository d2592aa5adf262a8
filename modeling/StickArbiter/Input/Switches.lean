import StickArbiter.Time

/-!
# Switches

The positions of the auxiliary switches, taken together at one time.
-/

namespace StickArbiter

/-- Where a switch stands; `unassigned` when no channel carries it. -/
inductive Position
  | unassigned
  | off
  | middle
  | on
deriving DecidableEq, Repr, Inhabited

/-- The position of a button. -/
def Position.ofPressed (pressed : Bool) : Position := if pressed then .on else .off

structure Switches where
  timestamp : Instant := .zero
  modeSlot : UInt8 := 0
  arm : Position := .unassigned
  kill : Position := .unassigned
  returnHome : Position := .unassigned
  loiter : Position := .unassigned
  offboard : Position := .unassigned
  gear : Position := .unassigned
deriving DecidableEq, Inhabited

end StickArbiter
