import StickArbiter.Settings.Basic

/-!
# Rules on settings

What settings have to keep to, checked in a fixed order; the first rule broken is the one reported.
-/

namespace StickArbiter

inductive Violation
  | lossTimeout
  | pollInterval
  | slotCount
  | armHysteresis
  | overrideSensitivity
  | journalDirectory
  | recordsPerFile
  | filesKept
  | logLevel
  | tooManySources (sources slots : Nat)
  | noPath (slot : Nat)
  | deadzone (slot : Nat)
  | republishInterval (slot lossTimeoutMs : Nat)
deriving DecidableEq, Repr

def Violation.message : Violation → String
  | .lossTimeout => "loss_timeout_ms must be between 1 and 60000"
  | .pollInterval => "poll_interval_ms must be between 1 and 10000"
  | .slotCount => "slot_count must be between 1 and 8"
  | .armHysteresis => "arm_hysteresis_ms must be between 0 and 10000"
  | .overrideSensitivity => "override_sensitivity must be greater than 0 and at most 100"
  | .journalDirectory => "telemetry log_dir cannot be empty when enabled"
  | .recordsPerFile => "max_records_per_file must be greater than 0"
  | .filesKept => "max_files_to_keep must be greater than 0"
  | .logLevel => "logging level must be one of: trace, debug, info, warn, error"
  | .tooManySources n slots =>
    toString n ++ " sources configured but only " ++ toString slots ++ " slots available"
  | .noPath slot => "replay source in slot " ++ toString slot ++ " requires a path"
  | .deadzone slot =>
    "deadzone of source in slot " ++ toString slot ++ " must be between 0.0 and 0.25"
  | .republishInterval slot timeout =>
    "republish_interval_ms of source in slot " ++ toString slot
      ++ " must be between 1 and loss_timeout_ms (" ++ toString timeout ++ ")"

def brokenIf (broken : Bool) (v : Violation) : List Violation := if broken then [v] else []

/-- The rules that the source of a slot breaks. -/
def SourceSettings.violations (s : SourceSettings) (slot lossTimeoutMs : Nat) : List Violation :=
  brokenIf (s.kind = .replay && s.path = "") (.noPath slot)
    ++ brokenIf (s.deadzone < 0.0 || 0.25 < s.deadzone) (.deadzone slot)
    ++ brokenIf (s.kind = .joystick &&
        (s.republishIntervalMs = 0 || lossTimeoutMs ≤ s.republishIntervalMs))
        (.republishInterval slot lossTimeoutMs)

/-- The rules that settings break, in the order in which they are checked. -/
def Settings.violations (s : Settings) : List Violation :=
  let a := s.arbitration
  brokenIf (a.lossTimeoutMs = 0 || 60000 < a.lossTimeoutMs) .lossTimeout
    ++ brokenIf (a.pollIntervalMs = 0 || 10000 < a.pollIntervalMs) .pollInterval
    ++ brokenIf (a.slotCount = 0 || 8 < a.slotCount) .slotCount
    ++ brokenIf (10000 < s.gestures.armHysteresisMs) .armHysteresis
    ++ brokenIf
        (!(0.0 < s.gestures.overrideSensitivity && s.gestures.overrideSensitivity ≤ 100.0))
        .overrideSensitivity
    ++ brokenIf (s.journal.enabled && s.journal.directory = "") .journalDirectory
    ++ brokenIf (s.journal.recordsPerFile = 0) .recordsPerFile
    ++ brokenIf (s.journal.filesKept = 0) .filesKept
    ++ brokenIf (Level.ofName? s.log.level).isNone .logLevel
    ++ brokenIf (a.slotCount < s.sources.length) (.tooManySources s.sources.length a.slotCount)
    ++ s.sources.zipIdx.flatMap fun (source, slot) => source.violations slot a.lossTimeoutMs

end StickArbiter
