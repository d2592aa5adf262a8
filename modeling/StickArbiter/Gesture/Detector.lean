import StickArbiter.Debounce
import StickArbiter.Gesture.Geometry

/-!
# The gesture detector

A gesture counts once its geometry has been held for the confirmation delay; it ends with the first
sample that does not show it. The sample that confirms a gesture is the one that requests it.
-/

namespace StickArbiter

/-- Both gestures, debounced. -/
structure GestureDetector where
  arm : Debounce := .start false
  disarm : Debounce := .start false
deriving DecidableEq, Repr, Inhabited

/-- What a sample shows: the gestures held, and those that it newly confirms. -/
structure GestureReport where
  arm : Bool
  disarm : Bool
  armRequested : Bool
  disarmRequested : Bool
deriving DecidableEq, Repr

namespace GestureDetector

/-- Sets how long a gesture has to be held. Releasing one needs no delay. -/
def setDelay (g : GestureDetector) (delay : Span) : GestureDetector :=
  { arm := g.arm.setDelayFrom false delay, disarm := g.disarm.setDelayFrom false delay }

def withDelay (delay : Span) : GestureDetector := setDelay {} delay

def feed (g : GestureDetector) (a : Axes) (t : Instant) : GestureDetector :=
  let shown := Geometry.ofAxes a
  { arm := g.arm.feed shown.arm t, disarm := g.disarm.feed shown.disarm t }

/-- What a sample shows, given the detector before it. -/
def report (g : GestureDetector) (a : Axes) (t : Instant) : GestureReport :=
  let after := g.feed a t
  { arm := after.arm.confirmed
    disarm := after.disarm.confirmed
    armRequested := after.arm.confirmed && !g.arm.confirmed
    disarmRequested := after.disarm.confirmed && !g.disarm.confirmed }

end GestureDetector

end StickArbiter
