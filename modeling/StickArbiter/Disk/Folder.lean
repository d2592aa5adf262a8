import StickArbiter.Disk.Fault
import StickArbiter.Sorted

/-!
# A folder

The entries of one folder by name, in no order. A folder can be removed with all that it holds;
after that nothing can be created in it.
-/

namespace StickArbiter

inductive Entry
  | folder
  | file (lines : List String)
deriving DecidableEq

structure Folder where
  /-- The entries by name; nothing when the folder was removed. -/
  entries : Option (List (String × Entry)) := some []
deriving DecidableEq

namespace Folder

def removed : Folder := ⟨none⟩

def empty : Folder := ⟨some []⟩

/-- The entries; none when the folder is not there. -/
def held (f : Folder) : List (String × Entry) := f.entries.getD []

def entry? (f : Folder) (name : String) : Option Entry := f.held.lookup name

def fileNames (f : Folder) : List String :=
  f.held.filterMap fun (name, e) => match e with
    | .file _ => some name
    | .folder => none

def create (f : Folder) (name : String) : Except IoFault Folder :=
  match f.entries with
  | none => .error .noEntry
  | some es => match es.lookup name with
    | none => .ok ⟨some (es ++ [(name, .file [])])⟩
    | some (.file _) => .ok f
    | some .folder => .error .isDirectory

/-- Adds a line to a file. A file that is gone takes the line with it. -/
def append (f : Folder) (name line : String) : Folder :=
  ⟨f.entries.map fun es => es.map fun (n, e) => (n, match e with
    | .file lines => if n = name then .file (lines ++ [line]) else e
    | .folder => e)⟩

def remove (f : Folder) (name : String) : Folder :=
  ⟨f.entries.map fun es => es.filter (·.1 ≠ name)⟩

/-- The order of names, character by character. -/
def nameBefore (a b : String) : Bool := a.toList.le b.toList

def sorted (f : Folder) : Option (List (String × Entry)) :=
  f.entries.map fun es => Sorted.ofList (fun a b => nameBefore a.1 b.1) es

end Folder

end StickArbiter
