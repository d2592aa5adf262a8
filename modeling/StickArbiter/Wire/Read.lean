import StickArbiter.Arbiter.Setpoint
import StickArbiter.Json.Record
import StickArbiter.Wire.Names

/-!
# What is read

The readers of everything that is written. A sample may leave out its source and whether it is
usable; a setpoint may leave out its slot.
-/

namespace StickArbiter.Wire

open Json Reader

/-! ## Single values -/

/-- Times and slots are numbers of 64 bits. -/
def wordLimit : Nat := UInt64.size

def instant : Reader Instant := do
  let n ← naturalBelow wordLimit "u64"
  pure (.ofMicros n)

def slot : Reader (Option Nat) := optional (naturalBelow wordLimit "usize")

def source : Reader Source :=
  variant [("unknown", .bare .unknown), ("rc", .bare .rc),
    ("mavlink", .carrying do
      let channel ← byte
      pure (.mavlink channel)),
    ("joystick", .bare .joystick), ("simulator", .bare .simulator)]

def choice (name : α → String) (all : List α) : Reader α :=
  variant (all.map fun a => (name a, .bare a))

def position : Reader Position := choice Position.name Position.all

def mode : Reader Mode := choice Mode.name Mode.all

/-! ## Records -/

def required (name : String) : Option α → Except Mismatch α
  | some a => .ok a
  | none => .error (.missing name)

/-- A member read by `r` and put into the draft by `put`. -/
def field (name : String) (get : σ → Option α) (r : Reader α) (put : σ → α → σ) : Member σ :=
  { name := name
    present := fun d => (get d).isSome
    read := do
      let a ← r
      pure fun d => put d a }

structure AxesDraft where
  x : Option Float32 := none
  y : Option Float32 := none
  z : Option Float32 := none
  r : Option Float32 := none

def AxesDraft.complete (d : AxesDraft) : Except Mismatch Axes := do
  let x ← required "x" d.x
  let y ← required "y" d.y
  let z ← required "z" d.z
  let r ← required "r" d.r
  pure ⟨x, y, z, r⟩

def AxesDraft.setX (d : AxesDraft) (v : Float32) : AxesDraft := { d with x := some v }
def AxesDraft.setY (d : AxesDraft) (v : Float32) : AxesDraft := { d with y := some v }
def AxesDraft.setZ (d : AxesDraft) (v : Float32) : AxesDraft := { d with z := some v }
def AxesDraft.setR (d : AxesDraft) (v : Float32) : AxesDraft := { d with r := some v }

def axesShape : Shape AxesDraft Axes :=
  { name := "StickAxes"
    members :=
      [field "x" AxesDraft.x single AxesDraft.setX, field "y" AxesDraft.y single AxesDraft.setY,
        field "z" AxesDraft.z single AxesDraft.setZ, field "r" AxesDraft.r single AxesDraft.setR]
    complete := AxesDraft.complete }

def axes : Reader Axes := record axesShape {}

/-- An axis from a value that was kept. -/
def singleOf : Found → Except Mismatch Float32
  | .integer n => .ok (Decimal.ofInt n)
  | .real x => .ok (Decimal.narrow x)
  | other => .error (.wrongType other "f32")

/-- How a kept value is put into a draft of the axes. -/
def axisOf (name : String) (v : Found) : Except Mismatch (AxesDraft → AxesDraft) := do
  let x ← singleOf v
  pure fun d => match name with
    | "x" => d.setX x
    | "y" => d.setY x
    | "z" => d.setZ x
    | _ => d.setR x

/-- The axes among the members that an object holds besides. -/
def spreadAxes (others : List (String × Found)) : Except Mismatch Axes :=
  collect axesShape axisOf others {}

def withAxes (s : Shape σ α) (empty : σ) (join : α → Axes → β) : Reader β := do
  let (a, others) ← openRecord s empty
  match spreadAxes others with
  | .ok axes => pure (join a axes)
  | .error m => reject m

structure SampleDraft where
  timestamp : Option Instant := none
  source : Option Source := none
  valid : Option Bool := none

def SampleDraft.complete (d : SampleDraft) : Except Mismatch (Axes → Sample) := do
  let t ← required "timestamp" d.timestamp
  pure fun a => ⟨a, t, d.source.getD .unknown, d.valid.getD true⟩

def sampleShape : Shape SampleDraft (Axes → Sample) :=
  { name := "InputSample"
    members :=
      [field "timestamp" SampleDraft.timestamp instant fun d v => { d with timestamp := some v },
        field "data_source" SampleDraft.source source fun d v => { d with source := some v },
        field "valid" SampleDraft.valid flag fun d v => { d with valid := some v }]
    complete := SampleDraft.complete }

def sample : Reader Sample := withAxes sampleShape {} fun f a => f a

structure SetpointDraft where
  timestamp : Option Instant := none
  valid : Option Bool := none
  source : Option Source := none
  armGesture : Option Bool := none
  disarmGesture : Option Bool := none
  userOverride : Option Bool := none
  slot : Option (Option Nat) := none

def SetpointDraft.complete (d : SetpointDraft) : Except Mismatch (Axes → Setpoint) := do
  let timestamp ← required "timestamp" d.timestamp
  let valid ← required "valid" d.valid
  let source ← required "data_source" d.source
  let arm ← required "arm_gesture" d.armGesture
  let disarm ← required "disarm_gesture" d.disarmGesture
  let takeover ← required "user_override" d.userOverride
  pure fun a => ⟨timestamp, a, valid, source, arm, disarm, takeover, d.slot.join⟩

def setpointShape : Shape SetpointDraft (Axes → Setpoint) :=
  { name := "ManualControlSetpoint"
    members :=
      [field "timestamp" SetpointDraft.timestamp instant fun d v => { d with timestamp := some v },
        field "valid" SetpointDraft.valid flag fun d v => { d with valid := some v },
        field "data_source" SetpointDraft.source source fun d v => { d with source := some v },
        field "arm_gesture" SetpointDraft.armGesture flag
          fun d v => { d with armGesture := some v },
        field "disarm_gesture" SetpointDraft.disarmGesture flag
          fun d v => { d with disarmGesture := some v },
        field "user_override" SetpointDraft.userOverride flag
          fun d v => { d with userOverride := some v },
        field "instance" SetpointDraft.slot slot fun d v => { d with slot := some v }]
    complete := SetpointDraft.complete }

def setpoint : Reader Setpoint := withAxes setpointShape {} fun f a => f a

structure SwitchesDraft where
  timestamp : Option Instant := none
  modeSlot : Option UInt8 := none
  arm : Option Position := none
  kill : Option Position := none
  returnHome : Option Position := none
  loiter : Option Position := none
  offboard : Option Position := none
  gear : Option Position := none

def SwitchesDraft.complete (d : SwitchesDraft) : Except Mismatch Switches := do
  let timestamp ← required "timestamp" d.timestamp
  let modeSlot ← required "mode_slot" d.modeSlot
  let arm ← required "arm_switch" d.arm
  let kill ← required "kill_switch" d.kill
  let returnHome ← required "return_switch" d.returnHome
  let loiter ← required "loiter_switch" d.loiter
  let offboard ← required "offboard_switch" d.offboard
  let gear ← required "gear_switch" d.gear
  pure ⟨timestamp, modeSlot, arm, kill, returnHome, loiter, offboard, gear⟩

def switchesShape : Shape SwitchesDraft Switches :=
  { name := "SwitchesSample"
    members :=
      [field "timestamp" SwitchesDraft.timestamp instant fun d v => { d with timestamp := some v },
        field "mode_slot" SwitchesDraft.modeSlot byte fun d v => { d with modeSlot := some v },
        field "arm_switch" SwitchesDraft.arm position fun d v => { d with arm := some v },
        field "kill_switch" SwitchesDraft.kill position fun d v => { d with kill := some v },
        field "return_switch" SwitchesDraft.returnHome position
          fun d v => { d with returnHome := some v },
        field "loiter_switch" SwitchesDraft.loiter position fun d v => { d with loiter := some v },
        field "offboard_switch" SwitchesDraft.offboard position
          fun d v => { d with offboard := some v },
        field "gear_switch" SwitchesDraft.gear position fun d v => { d with gear := some v }]
    complete := SwitchesDraft.complete }

def switches : Reader Switches := record switchesShape {}

structure CommandDraft where
  kind : Option CommandKind := none
  param : Option Float32 := none
  origin : Option CommandOrigin := none
  targetSystem : Option UInt8 := none
  targetComponent : Option UInt8 := none
  timestamp : Option Instant := none

def CommandDraft.complete (d : CommandDraft) : Except Mismatch Command := do
  let kind ← required "command" d.kind
  let param ← required "param1" d.param
  let origin ← required "origin" d.origin
  let targetSystem ← required "target_system" d.targetSystem
  let targetComponent ← required "target_component" d.targetComponent
  let timestamp ← required "timestamp" d.timestamp
  pure ⟨kind, param, origin, targetSystem, targetComponent, timestamp⟩

def commandShape : Shape CommandDraft Command :=
  { name := "VehicleCommand"
    members :=
      [field "command" CommandDraft.kind (choice CommandKind.name [.armDisarm])
          fun d v => { d with kind := some v },
        field "param1" CommandDraft.param single fun d v => { d with param := some v },
        field "origin" CommandDraft.origin (choice CommandOrigin.name [.stickGesture])
          fun d v => { d with origin := some v },
        field "target_system" CommandDraft.targetSystem byte
          fun d v => { d with targetSystem := some v },
        field "target_component" CommandDraft.targetComponent byte
          fun d v => { d with targetComponent := some v },
        field "timestamp" CommandDraft.timestamp instant
          fun d v => { d with timestamp := some v }]
    complete := CommandDraft.complete }

def command : Reader Command := record commandShape {}

/-! ## Texts -/

def readSample (text : List Char) : Except ReadError Sample := run sample text

end StickArbiter.Wire
