import StickArbiter.Arbiter.Cycle
import StickArbiter.Wire.Text

/-!
# Records of the journal

A record is a setpoint or a command with the time at which it was recorded, on one line.
-/

namespace StickArbiter

inductive Record
  | setpoint (sp : Setpoint)
  | command (c : Command)
deriving DecidableEq

namespace Record

def kind : Record → String
  | .setpoint _ => "setpoint"
  | .command _ => "command"

def members : Record → List Json.MemberText
  | .setpoint sp => sp.wireMembers
  | .command c => c.wireMembers

def line (time : String) (r : Record) : String :=
  String.ofList <| Json.objectText <|
    [("time", Json.stringText time), ("type", Json.stringText r.kind)] ++ r.members

end Record

/-- What a call of the arbiter leaves in the journal. -/
def Call.record : Call → Record
  | .command c => .command c
  | .publish sp => .setpoint sp

end StickArbiter
