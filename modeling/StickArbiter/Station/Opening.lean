import StickArbiter.Station.Reload
import StickArbiter.Station.Run

/-!
# Opening a station

A station is opened in three steps: its settings are read, its sources are started, and the folder
of its journal is made. The first step that fails ends the program, and its report names the step
and gives the fault with its cause.
-/

namespace StickArbiter

/-- Why a station could not be opened, by the step that failed. -/
inductive OpeningFault
  | settings (path : String) (f : Fault)
  | sources (f : Fault)
  | journal (f : Fault)
deriving DecidableEq

namespace OpeningFault

def fault : OpeningFault → Fault
  | .settings _ f => f
  | .sources f => f
  | .journal f => f

def heading : OpeningFault → String
  | .settings path _ => "Failed to load configuration from " ++ path
  | .sources _ => "Failed to start input sources"
  | .journal _ => "Failed to initialize telemetry"

/-- What is behind the failure, the nearest first. -/
def causes (f : OpeningFault) : List String := f.fault.message :: f.fault.cause?.toList

/-- A text whose first line is led by `first`, and each other one by `others`. -/
def indented (first others : List Char) (text : String) : List Char :=
  first ++ text.toList.flatMap fun c => if c = '\n' then '\n' :: others else [c]

def blanks (n : Nat) : List Char := List.replicate n ' '

/-- The causes below one another, numbered where there are several. -/
def causesText : List String → List Char
  | [c] => '\n' :: indented (blanks 4) (blanks 4) c
  | cs => (cs.mapIdx fun i c =>
      '\n' :: indented (blanks 4 ++ Nat.toDigits 10 i ++ ": ".toList) (blanks 7) c).flatten

/-- What the program says before it ends. -/
def report (f : OpeningFault) : String :=
  "Error: " ++ f.heading ++ "\n\nCaused by:" ++ String.ofList (causesText f.causes)

end OpeningFault

/-- A station that is ready to run. -/
structure Station where
  settings : Settings
  feeders : List Feeder
  journal : Option Journal

/-- What came of opening a station. -/
structure Opening where
  /-- The settings, once they are read. -/
  settings : Option Settings := none
  log : List LogLine := []
  result : Except OpeningFault Station

namespace Station

def origin : String := "manual_control"

def defaultPath : String := "config/default.toml"

def version : String := "0.1.0"

/-- What is logged once the settings are read. -/
def greeting (s : Settings) : List LogLine :=
  [⟨.info, origin, "Manual control v" ++ version ++ " starting..."⟩,
    ⟨.info, origin, toString s.arbitration.slotCount ++ " slots, mode " ++ s.arbitration.mode.label
      ++ ", loss timeout " ++ toString s.arbitration.lossTimeoutMs ++ " ms"⟩]

def noSourcesLine : LogLine :=
  ⟨.warn, origin, "No input sources configured; setpoint will stay invalid"⟩

/-- What is logged when the station begins to run. -/
def readyLog (s : Settings) : List LogLine :=
  [(ArbiterEvent.parametersApplied s.parameters).line, ⟨.info, origin, "Press Ctrl+C to exit"⟩]

def openJournal (w : Surroundings) (s : Settings) : Except Fault (Option Journal) :=
  if s.journal.enabled then
    match w.folder s.journal.directory with
    | .error f => .error (.io f)
    | .ok folder => .ok (s.journalIn folder)
  else .ok none

/-- Opens the station whose settings are in the file at a path. -/
def openAt (w : Surroundings) (path : String) : Opening :=
  match Settings.ofFile (w.read path) with
  | .error f => { result := .error (.settings path f) }
  | .ok s =>
    let startup := Feeder.startAll w s.arbitration.slotCount s.sources
    let log := greeting s ++ startup.log
    match startup.fault with
    | some f => { settings := s, log := log, result := .error (.sources f) }
    | none =>
      let log := log ++ if s.sources.isEmpty then [noSourcesLine] else []
      match openJournal w s with
      | .error f => { settings := s, log := log, result := .error (.journal f) }
      | .ok journal =>
        { settings := s, log := log ++ readyLog s, result := .ok ⟨s, startup.started, journal⟩ }

def farewell (a : Arbiter) : List LogLine :=
  [⟨.info, origin, "Received Ctrl+C, shutting down..."⟩,
    ⟨.info, "manual_control::bus", "Scheduler shutting down"⟩,
    ⟨.debug, origin, "Output consumer stopped"⟩,
    a.statusReport.line]

end Station

/-- The least important level that the settings show. -/
def Settings.threshold (s : Settings) : Level := (Level.ofName? s.log.level).getD .info

/-- The lines of a log that the settings show; before they are read there is no log. -/
def Opening.shown (o : Opening) (log : List LogLine) : List LogLine :=
  match o.settings with
  | none => []
  | some s => log.filter (·.level.shownFrom s.threshold)

end StickArbiter
