import StickArbiter.Arbiter.Parameters
import StickArbiter.Log

/-!
# Settings

Everything that is set before the station starts, with the values that hold where nothing is said.
The parameters are the part that may change while it runs.
-/

namespace StickArbiter

structure ArbitrationSettings where
  lossTimeoutMs : Nat := 500
  mode : Mode := .fallback
  pollIntervalMs : Nat := 200
  slotCount : Nat := 3
deriving DecidableEq

structure GestureSettings where
  armHysteresisMs : Nat := 1000
  overrideSensitivity : Float32 := 30
deriving DecidableEq

structure JournalSettings where
  enabled : Bool := true
  directory : String := "./logs"
  recordsPerFile : Nat := 10000
  filesKept : Nat := 10
deriving DecidableEq

structure LogSettings where
  level : String := "info"
  /-- Where the log is also written to files; empty for nowhere. -/
  directory : String := ""
deriving DecidableEq

inductive SourceKind
  | joystick
  | replay
deriving DecidableEq, Repr

/-- One input; inputs take the slots in their order. -/
structure SourceSettings where
  kind : SourceKind
  /-- The gamepad's device; empty for the first one found. -/
  devicePath : String := ""
  /-- The recording's file. -/
  path : String := ""
  deadzone : Float32 := 0.05
  republishIntervalMs : Nat := 20
deriving DecidableEq

structure Settings where
  arbitration : ArbitrationSettings := {}
  gestures : GestureSettings := {}
  journal : JournalSettings := {}
  log : LogSettings := {}
  sources : List SourceSettings := []
deriving DecidableEq

/-- The part of the settings that may change while the station runs. -/
def Settings.parameters (s : Settings) : Parameters :=
  { armHysteresis := .ofMillis s.gestures.armHysteresisMs
    lossTimeout := .ofMillis s.arbitration.lossTimeoutMs
    mode := s.arbitration.mode
    overrideSensitivity := s.gestures.overrideSensitivity }

def Settings.pollInterval (s : Settings) : Span := .ofMillis s.arbitration.pollIntervalMs

theorem Settings.parameters_default : ({} : Settings).parameters = {} := by decide +kernel

theorem Settings.pollInterval_default : ({} : Settings).pollInterval = defaultPollInterval := rfl

end StickArbiter
