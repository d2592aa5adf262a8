import StickArbiter.Toml.Node

/-!
# What can be wrong with a TOML text

A fault says in which part of the text reading stopped, what was expected there, and which rule was
broken, each as far as it is known. It is shown with its line and with marks below what it is about.
-/

namespace StickArbiter.Toml

/-- A rule on keys, tables and ranges that a text breaks. -/
inductive Breach
  | repeatedKey (key : String) (table : Option (List String))
  /-- A path goes through something that is no table. -/
  | notATable (path : List String) (kind : String)
  | outOfRange
  /-- An integer above those of 64 bits. -/
  | tooLarge
  /-- An integer below those of 64 bits. -/
  | tooSmall
  | tooDeep
deriving DecidableEq, Repr

def Breach.message : Breach → String
  | .repeatedKey key none => "duplicate key `" ++ key ++ "`"
  | .repeatedKey key (some []) => "duplicate key `" ++ key ++ "` in document root"
  | .repeatedKey key (some path) =>
    "duplicate key `" ++ key ++ "` in table `" ++ String.intercalate "." path ++ "`"
  | .notATable path kind =>
    "dotted key `" ++ String.intercalate "." path
      ++ "` attempted to extend non-table type (" ++ kind ++ ")"
  | .outOfRange => "value is out of range"
  | .tooLarge => "number too large to fit in target type"
  | .tooSmall => "number too small to fit in target type"
  | .tooDeep => "recursion limit exceeded"

structure Fault where
  /-- The innermost part with a name in which reading stopped. -/
  part : Option String := none
  expected : List String := []
  breach : Option Breach := none
deriving DecidableEq, Repr

namespace Fault

def ofBreach (b : Breach) : Fault := { breach := some b }

/-- The fault met in a part with a name; a part inside it keeps its own. -/
def within (part : String) (f : Fault) : Fault := { f with part := f.part.or (some part) }

/-- The fault where more was expected. -/
def expecting (what : List String) (f : Fault) : Fault := { f with expected := f.expected ++ what }

/-- A fault in words, with a line for each thing that is known. -/
def message (f : Fault) : String :=
  let expectation := if f.expected.isEmpty then [] else
    ["expected " ++ String.intercalate ", " f.expected]
  String.intercalate "\n" ((f.part.map ("invalid " ++ ·)).toList ++ expectation
    ++ (f.breach.map Breach.message).toList)

end Fault

/-- A fault and what of the text was left where it was met. -/
structure Halt where
  fault : Fault
  left : List Char
  /-- No other way to read the text from an earlier place is tried. -/
  settled : Bool := false
deriving DecidableEq, Repr

def Halt.tell (f : Fault → Fault) (h : Halt) : Halt := { h with fault := f h.fault }

/-- The extent of a fault: the character at which it was met. -/
def Halt.extent (h : Halt) : Extent := ⟨h.left, h.left.drop 1⟩

/-! ## Places -/

def byteCount (cs : List Char) : Nat := cs.foldl (fun n c => n + c.utf8Size) 0

def lastLine (cs : List Char) : List Char := (cs.reverse.takeWhile (· ≠ '\n')).reverse

/-- The line and the column of a place in a text, which is given by what is left there; both count
from 0. In front of a character of one byte columns count characters, in front of others bytes. The
end of a text is the column behind its last character, even if that ends a line. -/
def placeOf (text left : List Char) : Nat × Nat :=
  let before := text.take (text.length - left.length)
  match left with
  | [] =>
    if before.isEmpty then (0, 0)
    else (before.dropLast.count '\n', (lastLine before.dropLast).length + 1)
  | c :: _ =>
    let line := lastLine before
    (before.count '\n', if c.utf8Size = 1 then line.length else byteCount line)

def linesOf (text : List Char) : List (List Char) :=
  text.foldr (fun c ls => match c, ls with
    | '\n', ls => [] :: ls
    | c, l :: ls => (c :: l) :: ls
    | c, [] => [[c]]) [[]]

/-- A message under the line of the text that it is about, with a mark for each byte of the extent
on that line. -/
def annotated (text : List Char) (e : Extent) (message : String) : String :=
  let (line, column) := placeOf text e.before
  let number := toString (line + 1)
  let content := (linesOf text).getD line []
  let size := byteCount (e.before.take (e.before.length - e.behind.length))
  let marks := max 1 (min size (byteCount content - column))
  let gutter := String.ofList (List.replicate (number.length + 1) ' ')
  "TOML parse error at line " ++ number ++ ", column " ++ toString (column + 1) ++ "\n"
    ++ gutter ++ "|\n"
    ++ number ++ " | " ++ String.ofList content ++ "\n"
    ++ gutter ++ "|" ++ String.ofList (List.replicate (column + 1) ' ')
    ++ String.ofList (List.replicate marks '^') ++ "\n"
    ++ message

end StickArbiter.Toml
