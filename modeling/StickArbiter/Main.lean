import StickArbiter.Gamepad.Packet
import StickArbiter.Station.Live

/-!
# The program

Reads the settings named by its first argument, starts their sources and runs until it is stopped:
by a line `stop` on standard input, or from outside. A line `reload` has the settings read again.
Log lines go to standard output and, if the settings say so, to a file for each day.
-/

namespace StickArbiter.Program

/-! ## Files -/

def faultOf : IO.Error → IoFault
  | .noFileOrDirectory .. => .noEntry
  | .permissionDenied .. => .denied
  | .alreadyExists .. => .taken
  | .inappropriateType _ 20 _ => .notDirectory
  | .inappropriateType _ 21 _ => .isDirectory
  | .invalidArgument _ 36 _ => .nameTooLong
  | e => .other (toString e)

def attempt (act : IO α) : IO (Except IoFault α) := do
  match ← act.toBaseIO with
  | .ok a => pure (.ok a)
  | .error e => pure (.error (faultOf e))

def readFile (path : String) : IO (Except IoFault (List UInt8)) :=
  attempt do return (← IO.FS.readBinFile path).toList

/-- The first number in a text. -/
def firstNumber (text : List Char) : Nat :=
  Nat.ofDigitChars 10 ((text.dropWhile (!·.isDigit)).takeWhile (·.isDigit)) 0

/-- Milliseconds since the start of 1970: when the system was started and how long ago that was. -/
def wallMillis : IO Nat := do
  let started := ((← IO.FS.readFile "/proc/stat").splitOn "btime")[1]?.getD ""
  let up := (← IO.FS.readFile "/proc/uptime").toList
  let fraction := (up.dropWhile (· ≠ '.')).drop 1
  return (firstNumber started.toList + firstNumber up) * 1000 + firstNumber fraction * 10

/-- Writes what has changed in the journal's folder to the disk. -/
def persist (path : String) (before after : Folder) : IO Unit := do
  for name in before.fileNames do
    unless after.fileNames.contains name do IO.FS.removeFile (path ++ "/" ++ name)
  for (name, entry) in after.held do
    if let .file lines := entry then
      let file ← IO.FS.Handle.mk (path ++ "/" ++ name) .append
      for line in lines do file.putStrLn line

def namesOnly (f : Folder) : Folder :=
  ⟨f.entries.map fun es => es.map fun (name, _) => (name, .file [])⟩

/-! ## Devices -/

def hexNumber (text : String) : Nat :=
  (text.toList.filter (·.isAlphanum)).foldl (fun n c =>
    n * 16 + if c.isDigit then c.toNat - 48 else c.toLower.toNat - 87) 0

def device (path : String) : IO Gamepad.Device := do
  let name := (path.splitOn "/").getLast?.getD ""
  let id (what : String) : IO Nat := do
    match ← readFile ("/sys/class/input/" ++ name ++ "/device/id/" ++ what) with
    | .ok bytes => pure (hexNumber ((textOfBytes ⟨bytes.toArray⟩).toOption.getD ""))
    | .error _ => pure 0
  let opened ← attempt (IO.FS.Handle.mk path .read)
  return {
    path := path
    vendor := ← id "vendor"
    product := ← id "product"
    openFault := match opened with
      | .ok _ => if Gamepad.inputDirectory.isPrefixOf path then none else some .notInputDevice
      | .error f => some f }

/-- The devices of the system, and those at some paths. -/
def devices (paths : List String) : IO Gamepad.Devices := do
  let all ← (List.range 64).mapM fun n => device (Gamepad.inputDirectory ++ "/event" ++ toString n)
  let others ← paths.mapM device
  return {
    listed := .ok (all.filter (·.openFault ≠ some .noEntry))
    elsewhere := fun path => others.find? (·.path = path) }

/-- What the devices have sent and nobody has taken yet, the latest first. -/
abbrev Mailbox := IO.Ref (List (String × Gamepad.Arrival))

/-- Reads a device until it fails. -/
partial def pump (mailbox : Mailbox) (path : String) (h : IO.FS.Handle) : IO Unit := do
  match ← attempt (h.read Gamepad.packetSize.toUSize) with
  | .ok bytes =>
    if bytes.size < Gamepad.packetSize then mailbox.modify ((path, .fault .noDevice) :: ·)
    else
      mailbox.modify ((path, .events (Gamepad.Event.ofPackets 1 bytes.toList)) :: ·)
      pump mailbox path h
  | .error _ => mailbox.modify ((path, .fault .noDevice) :: ·)

/-! ## Running -/

def tell (s : Settings) (lines : List LogLine) : IO Unit := do
  for line in lines do
    if line.level.shownFrom s.threshold then
      let now := Moment.ofMillis (← wallMillis)
      let text := now.text ++ " " ++ line.full
      IO.println text
      unless s.log.directory.isEmpty do
        IO.FS.createDirAll s.log.directory
        let file ← IO.FS.Handle.mk (s.log.directory ++ "/manual-control.log." ++ now.date) .append
        file.putStrLn text

/-- Reads requests from standard input as long as there are any. -/
partial def listen (requests : IO.Ref (List String)) (input : IO.FS.Stream) : IO Unit := do
  let line ← input.getLine
  unless line.isEmpty do
    requests.modify ((line.trimAscii.toString) :: ·)
    listen requests input

def conditions (now : Moment) : Conditions :=
  { clock := Instant.ofMillis, calendar := fun _ => now, stop := 0 }

/-- Writes the journal of a step to the disk and goes on with the names of its files. -/
def settle (s : Settings) (before : Option Journal) (l : Live) : IO Live := do
  match l.desk.journal with
  | none => return l
  | some j =>
    let kept := ((before.map (·.folder)).getD {})
    if let .error f ← attempt (persist s.journal.directory kept j.folder) then
      tell s [⟨.warn, Station.origin, "Failed to write the journal: " ++ f.message⟩]
    let journal := { j with folder := namesOnly j.folder }
    return { l with desk := { l.desk with journal := some journal } }

/-- Runs a station until it is told to stop. -/
partial def run (s : Settings) (path : String) (start : Nat) (mailbox : Mailbox)
    (requests : IO.Ref (List String)) (l : Live) : IO Unit := do
  IO.sleep 1
  let time := (← IO.monoMsNow) - start
  let sent := (← mailbox.swap []).reverse
  let before := l.desk.journal
  let stepped := l.step (conditions (.ofMillis (← wallMillis))) time fun device =>
    (sent.filter (·.1 = device)).map (·.2)
  tell s stepped.log
  let l ← settle s before stepped.live
  let asked ← requests.swap []
  if asked.contains "stop" then tell s (Station.farewell l.schedule.arbiter)
  else if asked.contains "reload" then
    let reload : Reload := Settings.ofFile (← readFile path)
    tell s [reload.line path]
    run s path start mailbox requests (l.change (Reload.carry · reload))
  else run s path start mailbox requests l

/-- What a station with some settings is started from. -/
def surroundings (path : String) (file : Except IoFault (List UInt8)) (s : Settings) :
    IO Surroundings := do
  let files ← (s.sources.filter (·.kind = .replay)).mapM fun x => return (x.path, ← readFile x.path)
  return {
    devices := ← devices ((s.sources.filter (·.kind = .joystick)).map (·.devicePath))
    read := fun p => if p = path then file else (files.lookup p).getD (.error .noEntry) }

/-- Makes the folder of the journal. -/
def makeFolder (s : Settings) : IO (Except IoFault Unit) :=
  if s.journal.enabled then attempt (IO.FS.createDirAll s.journal.directory) else pure (.ok ())

/-- Opens the station whose settings are at a path. -/
def openAt (path : String) : IO Opening := do
  let file ← readFile path
  match Settings.ofFile file with
  | .error f => return { result := .error (.settings path f) }
  | .ok s =>
    let w ← surroundings path file s
    let opening := Station.openAt w path
    match opening.result with
    | .error _ => return opening
    | .ok _ => match ← makeFolder s with
      | .ok () => return opening
      | .error f => return Station.openAt { w with folder := fun _ => .error f } path

end StickArbiter.Program

open StickArbiter Program in
def main (args : List String) : IO UInt32 := do
  let path := args.head?.getD Station.defaultPath
  let opening ← openAt path
  let settings := opening.settings.getD {}
  tell settings opening.log
  match opening.result with
  | .error f =>
    IO.eprintln f.report
    return 1
  | .ok station =>
    let mailbox ← IO.mkRef []
    let requests ← IO.mkRef []
    let input ← IO.getStdin
    let _ ← IO.asTask (listen requests input)
    for feeder in station.feeders do
      if let .gamepad d _ _ _ := feeder then
        let h ← IO.FS.Handle.mk d.path .read
        let _ ← IO.asTask (pump mailbox d.path h) .dedicated
    let started := Live.start station (conditions (.ofMillis (← wallMillis)))
    tell settings started.log
    let l ← settle settings none started.live
    run settings path (← IO.monoMsNow) mailbox requests l
    return 0
