import StickArbiter.Arbiter.Mode

/-!
# Parameters

The settings that may change while the station runs.
-/

namespace StickArbiter

structure Parameters where
  /-- How long a stick gesture has to be held. -/
  armHysteresis : Span := .ofMillis 1000
  /-- How old the last sample of a live slot may be. -/
  lossTimeout : Span := .ofMillis 500
  mode : Mode := .fallback
  /-- The stick movement that counts as a takeover, in percent of the stick's range. -/
  overrideSensitivity : Float32 := 30
deriving DecidableEq

instance : Inhabited Parameters := ⟨{}⟩

/-- How long the arbiter waits for news before its next cycle, unless told otherwise. -/
def defaultPollInterval : Span := .ofMillis 200

end StickArbiter
