import StickArbiter.Disk.Folder
import StickArbiter.Text.Lines

/-!
# Files by path

A path is a list of names from the root on, or from the folder in which the station was started.
Each name of a path is looked up in what the names before it lead to, so that a file in the middle
of a path is a fault of its own.
-/

namespace StickArbiter

inductive Node
  | folder
  | file (content : List UInt8)
deriving DecidableEq

/-- Folders and files by their paths from the root. -/
structure Disk where
  nodes : List (List String × Node) := []
  /-- The folder in which the station was started. By default it has no name that a path could
  contain. -/
  home : List String := [""]
  /-- Folders in which nothing can be created, and what the system says to it. -/
  sealed : List (List String × IoFault) := []
deriving DecidableEq

namespace Disk

def names (path : String) : List String :=
  (path.toList.foldr (fun c ns => match c, ns with
    | '/', ns => [] :: ns
    | c, n :: ns => (c :: n) :: ns
    | c, [] => [[c]]) [[]]).map String.ofList

def start (d : Disk) (path : String) : List String :=
  if path.toList.head? = some '/' then [] else d.home

def node? (d : Disk) (path : List String) : Option Node :=
  if path.isPrefixOf d.home then some .folder else d.nodes.lookup path

def maxName : Nat := 255

def maxPath : Nat := 4095

def enter (d : Disk) (here : List String) (name : String) : Except IoFault (List String × Node) :=
  if name = "" || name = "." then .ok (here, .folder)
  else if name = ".." then .ok (here.dropLast, .folder)
  else if maxName < name.utf8ByteSize then .error .nameTooLong
  else match d.node? (here ++ [name]) with
    | some n => .ok (here ++ [name], n)
    | none => .error .noEntry

/-- Follows names from what is at `here`. -/
def follow (d : Disk) : List String → Node → List String → Except IoFault (List String × Node)
  | here, n, [] => .ok (here, n)
  | _, .file _, _ :: _ => .error .notDirectory
  | here, .folder, name :: rest =>
    match d.enter here name with
    | .error f => .error f
    | .ok (next, n) => follow d next n rest

/-- What is wrong with the text of a path, wherever it may lead. -/
def pathFault (path : String) : Option IoFault :=
  if path.toList.contains '\x00' then some .nulInPath
  else if maxPath < path.utf8ByteSize then some .nameTooLong
  else none

def find (d : Disk) (path : String) : Except IoFault (List String × Node) :=
  match pathFault path with
  | some f => .error f
  | none =>
    if path.isEmpty then .error .noEntry else d.follow (d.start path) .folder (names path)

def read (d : Disk) (path : String) : Except IoFault (List UInt8) :=
  match d.find path with
  | .error f => .error f
  | .ok (_, .folder) => .error .isDirectory
  | .ok (_, .file content) => .ok content

/-! ## Changing what is there -/

def put (d : Disk) (path : List String) (n : Node) : Disk :=
  { d with nodes := (path, n) :: d.nodes.filter (·.1 ≠ path) }

/-- A path without the names at its end that lead nowhere else. -/
def withoutEnd (idle : String → Bool) (ns : List String) : List String :=
  (ns.reverse.dropWhile idle).reverse

/-- The path of the folder around that of a path; a name in the middle that leads nowhere else
belongs to the names before it. -/
def around (ns : List String) : List String :=
  let idle (n : String) : Bool := n = "" || n = "."
  withoutEnd idle (withoutEnd idle ns).dropLast

def create (d : Disk) (start ns : List String) : Except IoFault Disk :=
  let ns := withoutEnd (· = "") ns
  match ns.getLast? with
  | none => .error .taken
  | some last =>
    match d.follow start .folder ns.dropLast with
    | .error f => .error f
    | .ok (_, .file _) => .error .notDirectory
    | .ok (here, .folder) =>
      if last = "." || last = ".." then .error .taken
      else match d.enter here last with
        | .ok _ => .error .taken
        | .error .noEntry => match d.sealed.lookup here with
          | some f => .error f
          | none => .ok (d.put (here ++ [last]) .folder)
        | .error f => .error f

def isFolder (d : Disk) (start ns : List String) : Bool :=
  match d.follow start .folder ns with
  | .ok (_, .folder) => true
  | _ => false

/-- Sees to it that a path leads to a folder. Where one around it is missing, that is created first.
The fuel bounds the number of folders. -/
def createAll (start : List String) : Nat → Disk → List String → Except IoFault Disk
  | 0, _, _ => .error .noEntry
  | n + 1, d, ns =>
    let orThere (d : Disk) (f : IoFault) : Except IoFault Disk :=
      if d.isFolder start ns then .ok d else .error f
    match d.create start ns with
    | .ok d => .ok d
    | .error .noEntry =>
      match if (around ns).isEmpty then .ok d else createAll start n d (around ns) with
      | .error f => .error f
      | .ok d => match d.create start ns with
        | .ok d => .ok d
        | .error f => orThere d f
    | .error f => orThere d f

/-- Sees to it that there is a folder at a path, and gives the path from the root that leads to
it. -/
def makeFolder (d : Disk) (path : String) : Except IoFault (Disk × List String) :=
  match pathFault path with
  | some f => .error f
  | none =>
    let ns := names path
    match if path.isEmpty then .ok d else createAll (d.start path) (ns.length + 1) d ns with
    | .error f => .error f
    | .ok d => (d.follow (d.start path) .folder ns).map fun (here, _) => (d, here)

/-- A disk with a file and the folders above it. -/
def putFile (d : Disk) (path : String) (content : List UInt8) : Disk :=
  let ns := names path
  match createAll (d.start path) (ns.length + 1) d ns.dropLast with
  | .error _ => d
  | .ok d => match d.follow (d.start path) .folder ns.dropLast with
    | .error _ => d
    | .ok (here, _) => d.put (here ++ ns.getLast?.toList) (.file content)

def folder (d : Disk) (path : List String) : Folder :=
  ⟨some <| d.nodes.filterMap fun (p, n) =>
    match p.getLast? with
    | some name => if p.dropLast = path then some (name, match n with
        | .folder => .folder
        | .file content => .file ((Text.lines content).map fun l =>
          ((textOfBytes ⟨l.toArray⟩).toOption.getD ""))) else none
    | none => none⟩

end Disk

end StickArbiter
