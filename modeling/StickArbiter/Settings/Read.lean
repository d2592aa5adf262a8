import StickArbiter.Disk.Fault
import StickArbiter.Settings.Rules
import StickArbiter.Toml.Document
import StickArbiter.Toml.Typed

/-!
# Reading settings

Settings are a TOML text with one table for each part. A text is first read as a whole, then its
values as what they set, in their order, and then the rules are checked.
-/

namespace StickArbiter

open Toml Typed

namespace Settings

def arbitrationKeys : List (Key ArbitrationSettings) :=
  [key "loss_timeout_ms" (natural "u64") fun d v => { d with lossTimeoutMs := v },
    key "selection_mode" (choice (Mode.all.map fun m => (m.name, m)))
      fun d v => { d with mode := v },
    key "poll_interval_ms" (natural "u64") fun d v => { d with pollIntervalMs := v },
    key "slot_count" (natural "usize") fun d v => { d with slotCount := v }]

def gestureKeys : List (Key GestureSettings) :=
  [key "arm_hysteresis_ms" (natural "u64") fun d v => { d with armHysteresisMs := v },
    key "override_sensitivity" single fun d v => { d with overrideSensitivity := v }]

def journalKeys : List (Key JournalSettings) :=
  [key "enabled" flag fun d v => { d with enabled := v },
    key "log_dir" text fun d v => { d with directory := v },
    key "max_records_per_file" (natural "usize") fun d v => { d with recordsPerFile := v },
    key "max_files_to_keep" (natural "usize") fun d v => { d with filesKept := v }]

def logKeys : List (Key LogSettings) :=
  [key "level" text fun d v => { d with level := v },
    key "directory" text fun d v => { d with directory := v }]

def sourceKinds : List (String × SourceKind) := [("joystick", .joystick), ("replay", .replay)]

/-- A source whose kind need not be known yet. -/
structure SourceDraft where
  kind : Option SourceKind := none
  rest : SourceSettings := { kind := .joystick }

def sourceKeys : List (Key SourceDraft) :=
  let other {α : Type} (name : String) (r : Typed α)
      (put : SourceSettings → α → SourceSettings) : Key SourceDraft :=
    key name r fun d v => { d with rest := put d.rest v }
  [key "kind" (choice sourceKinds) fun d v => { d with kind := some v },
    other "device_path" text fun d v => { d with devicePath := v },
    other "path" text fun d v => { d with path := v },
    other "deadzone" single fun d v => { d with deadzone := v },
    other "republish_interval_ms" (natural "u64") fun d v => { d with republishIntervalMs := v }]

/-- A source; its kind has to be given. -/
def readSource : Typed SourceSettings := fun node => do
  let d ← sectionOf "SourceConfig" sourceKeys {} node
  match d.kind, node with
  | some k, _ => pure { d.rest with kind := k }
  | none, .list _ _ => unfit node (.wrongLength 0 "struct SourceConfig with 5 elements")
  | none, .tables _ _ => unfit node (.wrongLength 0 "struct SourceConfig with 5 elements")
  | none, _ => unfit node (.missing "kind")

def readSources : Typed (List SourceSettings) := fun node => do
  let items ← nodes node
  items.mapM readSource

def keys : List (Key Settings) :=
  [key "arbitration" (sectionOf "ArbitrationConfig" arbitrationKeys {})
      fun d v => { d with arbitration := v },
    key "gestures" (sectionOf "GestureConfig" gestureKeys {}) fun d v => { d with gestures := v },
    key "telemetry" (sectionOf "TelemetryConfig" journalKeys {}) fun d v => { d with journal := v },
    key "logging" (sectionOf "LoggingConfig" logKeys {}) fun d v => { d with log := v },
    key "sources" readSources fun d v => { d with sources := v }]

/-- Why a text holds no settings. -/
inductive Fault
  | notToml (h : Toml.Halt)
  | unfit (u : Unfit)
  | violation (v : Violation)
deriving DecidableEq

def ofText (text : String) : Except Fault Settings :=
  match Toml.read text.toList with
  | .error h => .error (.notToml h)
  | .ok entries =>
    match fromEntries keys {} entries with
    | .error u => .error (.unfit u)
    | .ok s =>
      match s.violations.head? with
      | some v => .error (.violation v)
      | none => .ok s

/-- What is wrong with a text, in words. Where there is a place for it, its line is shown. -/
def Fault.message (text : String) : Fault → String
  | .notToml h => annotated text.toList h.extent h.fault.message
  | .unfit u => match u.extent? with
    | some e => annotated text.toList e u.cause.message
    | none => u.cause.message
  | .violation v => v.message

end Settings

end StickArbiter
