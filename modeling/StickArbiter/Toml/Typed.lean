import StickArbiter.Decimal.Rounding
import StickArbiter.Decode.Mismatch
import StickArbiter.Toml.Fault

/-!
# Typed values of a TOML text

A node is read as the type that is asked for. A section is read from a table, whose unknown keys do
not matter, or from a list that gives the values of its first keys in order. A date reads as a table
without known keys.
-/

namespace StickArbiter.Toml

inductive UnfitCause
  | mismatch (m : Mismatch)
  /-- A choice is neither a name nor a table with one. -/
  | noChoice (text : String)
deriving DecidableEq

/-- A cause and the extent of the innermost node around it that has one. -/
structure Unfit where
  cause : UnfitCause
  extent? : Option Extent
deriving DecidableEq

/-- Gives a fault an extent if it has none yet. -/
def Unfit.at (e : Option Extent) (u : Unfit) : Unfit := { u with extent? := u.extent?.or e }

def UnfitCause.message : UnfitCause → String
  | .mismatch m => m.message .pointed
  | .noChoice text => text

abbrev Typed (α : Type) := Node → Except Unfit α

def Node.found : Node → Found
  | .text _ s => .text s
  | .integer _ n => .integer n
  | .real _ x => .real x
  | .flag _ b => .flag b
  | .moment _ => .map
  | .list _ _ => .sequence
  | .table _ _ _ => .map
  | .tables _ _ => .sequence

namespace Typed

def unfit (node : Node) (m : Mismatch) : Except Unfit α := .error ⟨.mismatch m, node.extent?⟩

def wrongType (node : Node) (expected : String) : Except Unfit α :=
  unfit node (.wrongType node.found expected)

def natural (expected : String) : Typed Nat := fun node =>
  match node with
  | .integer _ n => if n < 0 then unfit node (.wrongValue (.integer n) expected) else .ok n.toNat
  | node => wrongType node expected

def single : Typed Float32 := fun node =>
  match node with
  | .integer _ n => .ok (Decimal.ofInt n)
  | .real _ x => .ok (Decimal.narrow x)
  | node => wrongType node "f32"

def flag : Typed Bool := fun node =>
  match node with
  | .flag _ b => .ok b
  | node => wrongType node "a boolean"

def text : Typed String := fun node =>
  match node with
  | .text _ s => .ok s
  | node => wrongType node "a string"

/-! ## Choices -/

/-- The value with a name. A name that is none is told at its place. -/
def named (all : List (String × α)) (place : Option Extent) (name : String) : Except Unfit α :=
  match all.lookup name with
  | some a => .ok a
  | none => .error ⟨.mismatch (.unknownVariant name (all.map (·.1))), place⟩

/-- A value without a payload has nothing behind its name but an empty table or list. -/
def nothing (node : Node) : Except Unfit Unit :=
  let no (text : String) : Except Unfit Unit := .error ⟨.noChoice text, node.extent?⟩
  match node with
  | .table _ _ [] | .list _ [] | .tables _ [] => .ok ()
  | .table _ _ _ | .list _ _ => no "expected empty table"
  | .tables _ _ => no "expected empty array"
  | other => no ("expected table, found " ++ other.kind)

/-- One of a few named values: the name, or a table with the name as its only key. -/
def choice (all : List (String × α)) : Typed α := fun node =>
  let no (text : String) : Except Unfit α := .error ⟨.noChoice text, node.extent?⟩
  match node with
  | .text _ s => named all node.extent? s
  | .table _ _ [(k, payload)] => do
    let a ← named all (some k.extent) k.text
    (nothing payload).mapError (Unfit.at node.extent?)
    pure a
  | .table _ _ [] => no "wanted exactly 1 element, found 0 elements"
  | .table _ _ _ => no "wanted exactly 1 element, more than 1 element"
  | _ => no "wanted string or table"

/-! ## Sections -/

/-- A key of a section that is read into a draft of type `σ`. -/
structure Key (σ : Type) where
  name : String
  read : Typed (σ → σ)

/-- A key whose value is put into the draft by `put`. -/
def key (name : String) (r : Typed α) (put : σ → α → σ) : Key σ :=
  { name := name, read := fun node => (r node).map fun a d => put d a }

/-- Puts the values of a table into a draft. A value without an extent is told at its key. -/
def fromEntries (keys : List (Key σ)) (draft : σ) (es : Entries) : Except Unfit σ :=
  es.foldlM (fun d (k, node) => match keys.find? (·.name = k.text) with
    | some key => ((key.read node).map (· d)).mapError (Unfit.at k.extent)
    | none => .ok d) draft

/-- Puts the values of a list into a draft, each under the key of its place. -/
def fromItems (keys : List (Key σ)) (draft : σ) (items : List Node) : Except Unfit σ :=
  (keys.zip items).foldlM (fun d (key, node) => (key.read node).map (· d)) draft

/-- A section whose keys can all be left out. -/
def sectionOf (name : String) (keys : List (Key σ)) (default : σ) : Typed σ := fun node =>
  match node with
  | .table e _ es => (fromEntries keys default es).mapError (Unfit.at e)
  | .moment _ => .ok default
  | .list _ items => fromItems keys default items
  | .tables _ items => fromItems keys default items
  | node => wrongType node ("struct " ++ name)

def nodes : Typed (List Node) := fun node =>
  match node with
  | .list _ items => .ok items
  | .tables _ items => .ok items
  | node => wrongType node "a sequence"

end Typed

end StickArbiter.Toml
