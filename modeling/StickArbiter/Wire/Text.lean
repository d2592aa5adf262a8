import StickArbiter.Arbiter.Setpoint
import StickArbiter.Json.Writer
import StickArbiter.Wire.Names

/-!
# What is written

Samples, switches, setpoints and commands are written as objects; the axes are members like the
others. A source is its name, and one with a channel an object with that name as its key.
-/

namespace StickArbiter

open Json

def Instant.wireText (t : Instant) : List Char := naturalText t.micros

def Source.wireText : Source → List Char
  | .mavlink channel => objectText [("mavlink", naturalText channel.toNat)]
  | s => stringText s.name

def Position.wireText (p : Position) : List Char := stringText p.name

def Mode.wireText (m : Mode) : List Char := stringText m.name

def Axes.wireMembers (a : Axes) : List MemberText :=
  [("x", singleText a.x), ("y", singleText a.y), ("z", singleText a.z), ("r", singleText a.r)]

def Sample.wireMembers (s : Sample) : List MemberText :=
  s.axes.wireMembers ++
    [("timestamp", s.timestamp.wireText), ("data_source", s.source.wireText),
      ("valid", flagText s.valid)]

def Switches.wireMembers (s : Switches) : List MemberText :=
  [("timestamp", s.timestamp.wireText), ("mode_slot", naturalText s.modeSlot.toNat),
    ("arm_switch", s.arm.wireText), ("kill_switch", s.kill.wireText),
    ("return_switch", s.returnHome.wireText), ("loiter_switch", s.loiter.wireText),
    ("offboard_switch", s.offboard.wireText), ("gear_switch", s.gear.wireText)]

def Setpoint.wireMembers (sp : Setpoint) : List MemberText :=
  ("timestamp", sp.timestamp.wireText) :: (sp.axes.wireMembers ++
    [("valid", flagText sp.valid), ("data_source", sp.source.wireText),
      ("arm_gesture", flagText sp.armGesture), ("disarm_gesture", flagText sp.disarmGesture),
      ("user_override", flagText sp.userOverride), ("instance", optionalText naturalText sp.slot)])

def Command.wireMembers (c : Command) : List MemberText :=
  [("command", stringText c.kind.name), ("param1", singleText c.param),
    ("origin", stringText c.origin.name), ("target_system", naturalText c.targetSystem.toNat),
    ("target_component", naturalText c.targetComponent.toNat),
    ("timestamp", c.timestamp.wireText)]

def Axes.wireText (a : Axes) : List Char := objectText a.wireMembers

def Sample.wireText (s : Sample) : List Char := objectText s.wireMembers

def Switches.wireText (s : Switches) : List Char := objectText s.wireMembers

def Setpoint.wireText (sp : Setpoint) : List Char := objectText sp.wireMembers

def Command.wireText (c : Command) : List Char := objectText c.wireMembers

end StickArbiter
