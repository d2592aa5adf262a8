import StickArbiter.Decimal.Shortest

/-!
# How a number is laid out

The digits of a number are chosen in one place; a layout holds the decisions that are left: where
positional writing ends, whether a whole number keeps its point, and what stands for the values
that are no numbers.
-/

namespace StickArbiter.Decimal

/-- The writing of a number. Its decimal exponent is that of its first digit. -/
structure Layout where
  /-- The least and the greatest decimal exponent written positionally; `none` for every one. -/
  positional : Option (Int × Int)
  /-- Whole numbers are written with `.0`. -/
  wholePoint : Bool
  /-- An exponent that is not negative is written with a plus sign. -/
  plusSign : Bool
  notANumber : String
  infinity : String

namespace Layout

/-- Digits written positionally, `digits * 10 ^ exponent`. -/
def positionalText (n : Layout) (digits : List Char) (exponent : Int) : List Char :=
  let whole := if n.wholePoint then ".0".toList else []
  if 0 ≤ exponent then digits ++ List.replicate exponent.toNat '0' ++ whole
  else
    let places := (-exponent).toNat
    if places < digits.length then
      digits.take (digits.length - places) ++ '.' :: digits.drop (digits.length - places)
    else '0' :: '.' :: (List.replicate (places - digits.length) '0' ++ digits)

/-- One digit, the others after a point, and the decimal exponent. -/
def exponentText (n : Layout) (digits : List Char) (first : Int) : List Char :=
  let sign := if first < 0 then ['-'] else if n.plusSign then ['+'] else []
  let rest := match digits.drop 1 with
    | [] => []
    | more => '.' :: more
  digits.take 1 ++ rest ++ 'e' :: (sign ++ Nat.toDigits 10 first.natAbs)

/-- The written form of `digits * 10 ^ exponent`. -/
def magnitudeText (n : Layout) (digits : Nat) (exponent : Int) : List Char :=
  let chars := Nat.toDigits 10 digits
  let first := exponent + chars.length - 1
  let positional := match n.positional with
    | none => true
    | some (low, high) => digits = 0 || (low ≤ first && first ≤ high)
  if positional then n.positionalText chars exponent else n.exponentText chars first

def write (n : Layout) : Binary → List Char
  | .notANumber => n.notANumber.toList
  | .infinite negative => (if negative then ['-'] else []) ++ n.infinity.toList
  | .finite negative mantissa exponent edge =>
    let (digits, e) := shortest mantissa exponent edge
    (if negative then ['-'] else []) ++ n.magnitudeText digits e

def float32 (n : Layout) (x : Float32) : String := String.ofList (n.write (.ofFloat32 x))

def float64 (n : Layout) (x : Float) : String := String.ofList (n.write (.ofFloat x))

/-- Every number positionally, a whole one without a point. -/
def plain : Layout :=
  { positional := none, wholePoint := false, plusSign := false, notANumber := "NaN",
    infinity := "inf" }

/-- Every number positionally, a whole one with a point. -/
def pointed : Layout := { plain with wholePoint := true }

/-- With a point, and with an exponent below `10 ^ -4` and from `10 ^ 16` on. -/
def debug : Layout := { pointed with positional := some (-4, 15) }

example : plain.float32 30.0 = "30" ∧ pointed.float32 0.05 = "0.05" := by decide +kernel

example : debug.float32 (Float32.ofBits 0x33d6bf95) = "1e-7" := by decide +kernel

end Layout

end StickArbiter.Decimal
