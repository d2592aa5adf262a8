/-!
# Rounding to a binary number

A real with a double's precision is narrowed to single precision by rounding to the nearest number,
a tie to the even one; beyond the largest finite number it becomes infinite.
-/

namespace StickArbiter.Decimal

open Float.Model (Format UnpackedFloat)

def narrow (x : Float) : Float32 :=
  let rounded := match x.toModel.unpack with
    | .finite sign mantissa exponent _ =>
      UnpackedFloat.round Format.binary32 sign mantissa exponent
    | other => other
  Float32.ofModel (Float32.Model.pack rounded)

def ofInt (n : Int) : Float32 :=
  if n < 0 then -(Float32.ofNat n.natAbs) else Float32.ofNat n.natAbs

/-- The double nearest to `digits * 10 ^ exponent`. -/
def ofDecimal (negative : Bool) (digits : Nat) (exponent : Int) : Float :=
  let magnitude :=
    if 0 ≤ exponent then Float.ofScientific digits false exponent.toNat
    else Float.ofScientific digits true (-exponent).toNat
  if negative then -magnitude else magnitude

example : narrow (ofDecimal false 1 (-1)) = 0.1 := by decide +kernel

end StickArbiter.Decimal
