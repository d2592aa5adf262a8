/-!
# The tree of a TOML text

A text holds a table; a table maps names to nodes, in the order in which they came. How a table came
about decides whether it may be opened again.
-/

namespace StickArbiter.Toml

/-- A stretch of a text: what of the text is left at its beginning and behind its end. -/
structure Extent where
  before : List Char
  behind : List Char
deriving DecidableEq, Repr

structure Name where
  text : String
  extent : Extent
deriving DecidableEq, Repr

/-- How a table came about. -/
inductive Origin
  /-- By a header of its own. -/
  | header
  /-- By the header of a table inside it. -/
  | implied
  /-- By a dotted key. -/
  | dotted
  /-- Between braces. -/
  | braced
deriving DecidableEq, Repr

/-- A value or a table. Of dates and times only that they are there is kept. A table that no header
and no braces of its own stand for has no extent. -/
inductive Node
  | text (extent : Extent) (s : String)
  | integer (extent : Extent) (n : Int)
  | real (extent : Extent) (x : Float)
  | flag (extent : Extent) (b : Bool)
  | moment (extent : Extent)
  | list (extent : Extent) (items : List Node)
  | table (extent : Option Extent) (origin : Origin) (entries : List (Name × Node))
  /-- Tables under one header that may be repeated. -/
  | tables (extent : Extent) (items : List Node)

abbrev Entries := List (Name × Node)

def Node.extent? : Node → Option Extent
  | .text e _ | .integer e _ | .real e _ | .flag e _ | .moment e | .list e _ | .tables e _ => some e
  | .table e _ _ => e

/-- What a node is called where it stands in the way of a table. -/
def Node.kind : Node → String
  | .text _ _ => "string"
  | .integer _ _ => "integer"
  | .real _ _ => "float"
  | .flag _ _ => "boolean"
  | .moment _ => "datetime"
  | .list _ _ => "array"
  | .table _ .braced _ => "inline table"
  | .table _ _ _ => "table"
  | .tables _ _ => "array of tables"

namespace Entries

def get? (es : Entries) (name : String) : Option Node :=
  (es.find? (·.1.text = name)).map (·.2)

/-- Replaces the node under a name that is there. -/
def replace (es : Entries) (name : String) (node : Node) : Entries :=
  es.map fun (k, v) => if k.text = name then (k, node) else (k, v)

def remove (es : Entries) (name : String) : Entries := es.filter fun (k, _) => k.text ≠ name

end Entries

end StickArbiter.Toml
