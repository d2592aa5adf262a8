import StickArbiter.Disk.Folder
import StickArbiter.Journal.Record
import StickArbiter.Log
import StickArbiter.Time.Calendar

/-!
# The journal

Records go line by line into a file of the journal's folder. A full file is followed by a new one,
whose name is made of the time and a counter, and then the first files in the order of names are
removed until no more than a set number are left.
-/

namespace StickArbiter

structure Journal where
  folder : Folder
  /-- How many records a file takes. -/
  recordsPerFile : Nat
  /-- How many files are left by the removal of old ones. -/
  filesKept : Nat
  /-- The file that is written to. -/
  current : Option String := none
  /-- How many records were written to it. -/
  written : Nat := 0
  /-- The counter for the next file's name. -/
  counter : UInt32 := 0
deriving DecidableEq

/-- What a journal says of its files. -/
inductive JournalEvent
  | opened (name : String)
  | removed (name : String)
deriving DecidableEq

/-- The log line of an event in the journal of a folder. -/
def JournalEvent.line (folder : String) : JournalEvent → LogLine
  | .opened name =>
    ⟨.info, "manual_control::telemetry::logger", "Telemetry logging to " ++ folder ++ "/" ++ name⟩
  | .removed name =>
    ⟨.debug, "manual_control::telemetry::logger",
      "Removed old telemetry file " ++ folder ++ "/" ++ name⟩

namespace Journal

/-- A journal in a folder; a limit of zero counts as one. -/
def create (folder : Folder) (recordsPerFile filesKept : Nat) : Journal :=
  { folder := folder, recordsPerFile := max 1 recordsPerFile, filesKept := max 1 filesKept }

/-! ## Names of files -/

def namePrefix : List Char := "telemetry_".toList

def extension : List Char := ".jsonl".toList

def counterText (n : Nat) : List Char :=
  let digits := Nat.toDigits 10 n
  List.replicate (4 - digits.length) '0' ++ digits

def fileName (second : String) (counter : UInt32) : String :=
  String.ofList
    (namePrefix ++ second.toList ++ '_' :: (counterText counter.toNat ++ extension))

/-- Whether a name is that of a file of the journal. -/
def ownsName (name : String) : Bool :=
  namePrefix.isPrefixOf name.toList && extension.isSuffixOf name.toList

def filesIn (f : Folder) : List String :=
  Sorted.ofList Folder.nameBefore (f.fileNames.filter ownsName)

/-! ## Recording -/

/-- The files that are too many. -/
def excess (j : Journal) : List String :=
  let files := filesIn j.folder
  files.take (files.length - j.filesKept)

def prune (j : Journal) : Journal := { j with folder := j.excess.foldl Folder.remove j.folder }

/-- Whether the next record needs a new file. -/
def needsFile (j : Journal) : Bool := j.current.isNone || j.recordsPerFile ≤ j.written

/-- What came of a record. -/
structure Recorded where
  journal : Journal
  log : List JournalEvent := []
  fault : Option IoFault := none

def rotate (j : Journal) (second : String) : Recorded :=
  let name := fileName second j.counter
  let j := { j with counter := j.counter + 1 }
  match j.folder.create name with
  | .error f => { journal := j, fault := some f }
  | .ok folder =>
    let j := { j with folder := folder, current := some name, written := 0 }
    { journal := j.prune, log := .opened name :: j.excess.map .removed }

def write (j : Journal) (line : String) : Journal :=
  match j.current with
  | none => j
  | some name => { j with folder := j.folder.append name line, written := j.written + 1 }

def record (j : Journal) (now : Moment) (r : Record) : Recorded :=
  let ready := if j.needsFile then j.rotate now.second else { journal := j }
  match ready.fault with
  | some _ => ready
  | none => { ready with journal := ready.journal.write (r.line now.text) }

end Journal

end StickArbiter
