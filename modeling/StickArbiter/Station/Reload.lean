import StickArbiter.Bus.Basic
import StickArbiter.Fault

/-!
# Reloading parameters

On request the settings' file is read again. If it holds settings their parameters go to the
arbiter, whatever else they say; if it does not, nothing changes.
-/

namespace StickArbiter

abbrev Reload := Except Fault Settings

namespace Settings

/-- The settings in a file that may not be readable. -/
def ofFile (file : Except IoFault (List UInt8)) : Except StickArbiter.Fault Settings :=
  match file with
  | .error f => .error (.io f)
  | .ok bytes => ofBytes ⟨bytes.toArray⟩

end Settings

namespace Reload

/-- What a reload logs. -/
def line (path : String) : Reload → LogLine
  | .ok _ => ⟨.info, "manual_control", "Reloaded parameters from " ++ path⟩
  | .error f =>
    ⟨.warn, "manual_control", "Ignoring invalid configuration " ++ path ++ ": " ++ f.message⟩

def carry (b : Bus) : Reload → Bus
  | .ok s => b.sendParameters s.parameters
  | .error _ => b

end Reload

end StickArbiter
