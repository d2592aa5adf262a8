import StickArbiter.Decimal.Layout
import StickArbiter.Text.Quoted

/-!
# Values that do not fit

A text may be well formed and yet hold something else than what is asked for. What is wrong with it
is one of a few things, whichever notation the text is written in.
-/

namespace StickArbiter

inductive Found
  | null
  | flag (b : Bool)
  | integer (n : Int)
  | real (x : Float)
  | text (s : String)
  | sequence
  | map
  /-- A variant without a payload. -/
  | bareVariant
deriving DecidableEq

inductive Mismatch
  | wrongType (found : Found) (expected : String)
  | wrongValue (found : Found) (expected : String)
  | wrongLength (n : Nat) (expected : String)
  | missing (member : String)
  | repeated (member : String)
  | unknownVariant (name : String) (known : List String)
deriving DecidableEq

namespace Found

/-- What was found, in words; reals are written in a layout. -/
def describe (layout : Decimal.Layout) : Found → String
  | .null => "null"
  | .flag b => "boolean `" ++ toString b ++ "`"
  | .integer n => "integer `" ++ toString n ++ "`"
  | .real x => "floating point `" ++ layout.float64 x ++ "`"
  | .text s => "string " ++ Text.quoted s
  | .sequence => "sequence"
  | .map => "map"
  | .bareVariant => "unit variant"

end Found

namespace Mismatch

def ticked (s : String) : String := "`" ++ s ++ "`"

def choices : List String → String
  | [] => ", there are no variants"
  | [a] => ", expected " ++ ticked a
  | [a, b] => ", expected " ++ ticked a ++ " or " ++ ticked b
  | names => ", expected one of " ++ String.intercalate ", " (names.map ticked)

def message (layout : Decimal.Layout) : Mismatch → String
  | .wrongType f e => "invalid type: " ++ f.describe layout ++ ", expected " ++ e
  | .wrongValue f e => "invalid value: " ++ f.describe layout ++ ", expected " ++ e
  | .wrongLength n e => "invalid length " ++ toString n ++ ", expected " ++ e
  | .missing m => "missing field " ++ ticked m
  | .repeated m => "duplicate field " ++ ticked m
  | .unknownVariant v known => "unknown variant " ++ ticked v ++ choices known

end Mismatch

end StickArbiter
