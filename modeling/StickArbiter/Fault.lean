import StickArbiter.Arbiter.Event
import StickArbiter.Gamepad.Device
import StickArbiter.Json.Fault
import StickArbiter.Settings.Read

/-!
# Faults of the station

What can go wrong around the arbiter, which itself never fails: in settings, files, recordings,
devices and in what is sent.
-/

namespace StickArbiter

/-- Why a part of the station cannot do its work. -/
inductive Fault
  /-- The text holds no settings. -/
  | settings (text : String) (f : Settings.Fault)
  | io (f : IoFault)
  | json (e : Json.ReadError)
  | gamepad (f : Gamepad.Fault)
  | transport (f : TransportFault)
deriving DecidableEq

namespace Fault

/-- The fault from which this one comes, in words, where there is one. -/
def cause? : Fault → Option String
  | .settings text f => some (f.message text)
  | .io f => some f.message
  | .json e => some e.message
  | .gamepad _ | .transport _ => none

def message : Fault → String
  | .settings text f => "Configuration error: " ++ f.message text
  | .io f => "I/O error: " ++ f.message
  | .json e => "JSON error: " ++ e.message
  | .gamepad f => f.message
  | .transport f => f.message

end Fault

namespace Settings

/-- The settings in the bytes of a file. -/
def ofBytes (bytes : ByteArray) : Except StickArbiter.Fault Settings :=
  match textOfBytes bytes with
  | .error f => .error (.io f)
  | .ok text => (ofText text).mapError (.settings text)

end Settings

end StickArbiter
