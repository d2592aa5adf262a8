import StickArbiter.Arbiter.Command
import StickArbiter.Arbiter.Mode
import StickArbiter.Input.Switches

/-!
# Names on the wire

Values that are one of a few are known by name. The names of a kind are listed in the order in
which messages give them.
-/

namespace StickArbiter

namespace Source

def name : Source → String
  | .unknown => "unknown"
  | .rc => "rc"
  | .mavlink _ => "mavlink"
  | .joystick => "joystick"
  | .simulator => "simulator"

end Source

namespace Position

def all : List Position := [.unassigned, .off, .middle, .on]

def name : Position → String
  | .unassigned => "unassigned"
  | .off => "off"
  | .middle => "middle"
  | .on => "on"

end Position

def CommandKind.name : CommandKind → String
  | .armDisarm => "component_arm_disarm"

def CommandOrigin.name : CommandOrigin → String
  | .stickGesture => "manual_stick_gesture"

end StickArbiter
