import StickArbiter.Disk.Basic
import StickArbiter.Station.Opening

/-!
# A session of the program

One use of the program from its start to its end: it is opened, runs for a while, may be told to
read its settings again, and is stopped.
-/

namespace StickArbiter

/-- What is found on a disk; a path that leads to something on it leads to no device. -/
def Disk.surroundings (d : Disk) (devices : Gamepad.Devices) : Surroundings :=
  { devices :=
      { devices with
        elsewhere := fun path => (devices.elsewhere path).or <| match d.find path with
          | .ok _ => some { path := path, openFault := some .notInputDevice }
          | .error f => some { path := path, openFault := some f } }
    read := d.read
    folder := fun path => match d.makeFolder path with
      | .error f => .error f
      | .ok (d, names) => .ok (d.folder names) }

/-- What the program meets in one session. -/
structure Session where
  /-- The path of the settings. -/
  path : String := Station.defaultPath
  disk : Disk
  devices : Gamepad.Devices
  /-- The bytes put in the place of the settings before a reload is asked for. -/
  reload : Option (List UInt8) := none
  /-- What the run meets, which may depend on what is run. -/
  conditions : Settings → List Feeder → Conditions

/-- What a session leaves. -/
structure Report where
  /-- The settings, if they could be read. -/
  settings : Option Settings := none
  /-- What was logged, as far as the settings show it. -/
  log : List LogLine := []
  /-- Why the station could not be opened, if so. -/
  failure : Option OpeningFault := none
  /-- What came of the reload, if there was one. -/
  reload : Option Reload := none
  /-- The journal at the end. -/
  journal : Option Journal := none

namespace Session

def report (s : Session) : Report :=
  let opening := Station.openAt (s.disk.surroundings s.devices) s.path
  match opening.result with
  | .error f =>
    { settings := opening.settings, log := opening.shown opening.log, failure := some f }
  | .ok station =>
    let run := Run.of station.settings station.feeders station.journal
      (s.conditions station.settings station.feeders)
    let reload := s.reload.map fun bytes => Settings.ofFile (.ok bytes)
    let log := opening.log ++ run.log.map Timed.what ++ (reload.map (Reload.line s.path)).toList
      ++ Station.farewell run.schedule.arbiter
    { settings := opening.settings
      log := opening.shown log
      reload := reload
      journal := run.desk.journal }

end Session

def Report.exitCode (r : Report) : UInt8 := if r.failure.isSome then 1 else 0

end StickArbiter
