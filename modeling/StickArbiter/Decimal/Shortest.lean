/-!
# The shortest decimal of a binary number

A binary number stands for every real that rounds to it. Its shortest decimal is a multiple of the
largest power of ten of which some multiple lies among those reals, and of two such multiples the
nearer one. All of it is exact arithmetic on natural numbers.
-/

namespace StickArbiter.Decimal

/-- What the bits of a binary number stand for. A finite one is `mantissa * 2 ^ exponent`. -/
inductive Binary
  | notANumber
  | infinite (negative : Bool)
  /-- `edge` says that the next number below is only half as far away as the next one above. -/
  | finite (negative : Bool) (mantissa : Nat) (exponent : Int) (edge : Bool)
deriving DecidableEq, Repr

structure Format where
  fractionBits : Nat
  exponentBits : Nat

def single : Format := ⟨23, 8⟩

def double : Format := ⟨52, 11⟩

/-- Takes the fields of a bit pattern apart. -/
def Binary.ofBits (f : Format) (bits : Nat) : Binary :=
  let fraction := bits % Nat.pow 2 f.fractionBits
  let field := bits / Nat.pow 2 f.fractionBits % Nat.pow 2 f.exponentBits
  let negative := bits / Nat.pow 2 (f.fractionBits + f.exponentBits) % 2 = 1
  let lowest : Int := 2 - Nat.pow 2 (f.exponentBits - 1) - f.fractionBits
  if field = Nat.pow 2 f.exponentBits - 1 then
    if fraction = 0 then .infinite negative else .notANumber
  else if field = 0 then .finite negative fraction lowest false
  else
    .finite negative (Nat.pow 2 f.fractionBits + fraction) (lowest + (field - 1))
      (fraction = 0 ∧ 1 < field)

def Binary.ofFloat32 (x : Float32) : Binary := .ofBits single x.toBits.toNat

def Binary.ofFloat (x : Float) : Binary := .ofBits double x.toBits.toNat

/-! ## Choosing the digits -/

structure Ratio where
  num : Nat
  den : Nat

def Ratio.scale (n base : Nat) (e : Int) : Ratio :=
  if 0 ≤ e then ⟨n * Nat.pow base e.toNat, 1⟩ else ⟨n, Nat.pow base (-e).toNat⟩

def Ratio.less (a b : Ratio) : Bool := a.num * b.den < b.num * a.den

/-- The reals that round to `mantissa * 2 ^ exponent`: the ends belong to them when the mantissa is
even. -/
structure Interval where
  low : Ratio
  value : Ratio
  high : Ratio
  closed : Bool

def Interval.ofBinary (mantissa : Nat) (exponent : Int) (edge : Bool) : Interval :=
  { low := .scale (4 * mantissa - if edge then 1 else 2) 2 (exponent - 2)
    value := .scale (4 * mantissa) 2 (exponent - 2)
    high := .scale (4 * mantissa + 2) 2 (exponent - 2)
    closed := mantissa % 2 = 0 }

def Interval.holds (i : Interval) (x : Ratio) : Bool :=
  if i.closed then !x.less i.low && !i.high.less x else i.low.less x && x.less i.high

/-- The multiple of `10 ^ k` in the interval that is nearest to its value, if there is one. Of two
equally near ones the even one is taken. -/
def Interval.multiple? (i : Interval) (k : Int) : Option Nat :=
  let unit := Ratio.scale 1 10 k
  let below := i.value.num * unit.den / (i.value.den * unit.num)
  let down := Ratio.mk (below * unit.num) unit.den
  let up := Ratio.mk ((below + 1) * unit.num) unit.den
  match i.holds down, i.holds up with
  | true, false => some below
  | false, true => some (below + 1)
  | false, false => none
  | true, true =>
    -- twice the value against the sum of its neighbours
    let twice := 2 * i.value.num * unit.den
    let sum := (2 * below + 1) * unit.num * i.value.den
    if twice < sum then some below
    else if sum < twice then some (below + 1)
    else some (if below % 2 = 0 then below else below + 1)

/-- Tries `10 ^ k` and then smaller powers. -/
def Interval.search (i : Interval) : Nat → Int → Nat × Int
  | 0, k => ((i.multiple? k).getD 0, k)
  | n + 1, k =>
    match i.multiple? k with
    | some d => (d, k)
    | none => i.search n (k - 1)

/-- A power of ten of which no multiple but zero lies below `2 ^ bits`. -/
def powerAbove (bits : Int) : Int := bits * 30103 / 100000 + 1

/-- Digits and exponent of the shortest decimal of a positive number, `digits * 10 ^ exponent`. -/
def shortest (mantissa : Nat) (exponent : Int) (edge : Bool) : Nat × Int :=
  if mantissa = 0 then (0, 0)
  else
    (Interval.ofBinary mantissa exponent edge).search 24
      (powerAbove (exponent + mantissa.log2 + 1))

end StickArbiter.Decimal
