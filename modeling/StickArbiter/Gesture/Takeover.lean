import StickArbiter.Input.Sample

/-!
# Takeover by the pilot

A pilot takes over by moving a stick further than a threshold from one set of axes to the next. The
throttle has half the range of the other axes, so its movement counts twice.
-/

namespace StickArbiter

/-- The axes that the next ones are compared with. -/
structure TakeoverDetector where
  previous : Option Axes := none
deriving DecidableEq, Inhabited

namespace TakeoverDetector

/-- The movement that a sensitivity in percent stands for. -/
def threshold (sensitivity : Float32) : Float32 := 0.01 * sensitivity

/-- Whether the sticks moved further than the threshold. -/
def moved (before after : Axes) (sensitivity : Float32) : Bool :=
  let limit := threshold sensitivity
  limit < (after.x - before.x).abs || limit < (after.y - before.y).abs
    || limit < (after.r - before.r).abs || limit < (after.z - before.z).abs * 2.0

/-- Whether new axes show a takeover; the first ones never do. -/
def shows (d : TakeoverDetector) (a : Axes) (sensitivity : Float32) : Bool :=
  match d.previous with
  | some before => moved before a sensitivity
  | none => false

def feed (_d : TakeoverDetector) (a : Axes) : TakeoverDetector := ⟨some a⟩

def reset (_d : TakeoverDetector) : TakeoverDetector := ⟨none⟩

end TakeoverDetector

end StickArbiter
