import StickArbiter.Decimal.Rounding
import StickArbiter.Json.Reader

/-!
# JSON numbers

The digits of a number are gathered in a significand of 64 bits; further ones only count for the
exponent. A real is the significand times or divided by a power of ten, so it may differ from the
nearest double.
-/

namespace StickArbiter.Json

/-- A number as read: an integer if it is written as one and fits in 64 bits, otherwise a real. -/
inductive Number
  | natural (n : Nat)
  | negative (n : Int)
  | real (x : Float)
deriving DecidableEq

namespace Number

def found : Number → Found
  | .natural n => .integer n
  | .negative n => .integer n
  | .real x => .real x

def toFloat32 : Number → Float32
  | .natural n => Decimal.ofInt n
  | .negative n => Decimal.ofInt n
  | .real x => Decimal.narrow x

end Number

/-! ## Reals -/

def tenTo (n : Nat) : Float := Decimal.ofDecimal false 1 n

/-- Divides by `10 ^ 308` until the exponent that is left can be divided out in one step. -/
def shrink : Nat → Float → Nat → Float
  | 0, x, e => x / tenTo e
  | n + 1, x, e =>
    if e ≤ 308 then x / tenTo e else if x == 0 then x else shrink n (x / tenTo 308) (e - 308)

/-- `significand * 10 ^ exponent`, or nothing if that is beyond a double. -/
def scale? (significand : Nat) (exponent : Int) : Option Float :=
  let x := Decimal.ofDecimal false significand 0
  if exponent < 0 then some (shrink (exponent.natAbs / 308) x exponent.natAbs)
  else if significand = 0 then some 0
  else if exponent ≤ 308 then
    let y := x * tenTo exponent.toNat
    if y.isInf then none else some y
  else none

/-! ## Gathering digits -/

/-- Appends digits to a significand while it stays below `2 ^ 64`: the significand, the number of
digits appended, and what is left. -/
def gather (significand count : Nat) : List Char → Nat × Nat × List Char
  | [] => (significand, count, [])
  | c :: rest =>
    let next := 10 * significand + (c.toNat - 48)
    if c.isDigit && next < 2 ^ 64 then gather next (count + 1) rest
    else (significand, count, c :: rest)

/-- Appends digits to an exponent, and gives it up with the digit that takes it beyond 31 bits. -/
def exponentDigits (e : Nat) : List Char → Option Nat × List Char
  | [] => (some e, [])
  | c :: rest =>
    let next := 10 * e + (c.toNat - 48)
    if !c.isDigit then (some e, c :: rest)
    else if next < 2 ^ 31 then exponentDigits next rest
    else (none, rest)

def startsWithDigit (text : List Char) : Bool := text.head?.any Char.isDigit

def isExponentMark (c : Char) : Bool := c = 'e' || c = 'E'

namespace Reader

def skipDigits : Reader Nat := fun text =>
  .ok ((text.takeWhile Char.isDigit).length, text.dropWhile Char.isDigit)

def real (negative : Bool) (significand : Nat) (exponent : Int) : Reader Number :=
  match scale? significand exponent with
  | some x => pure (.real (if negative then -x else x))
  | none => halt .numberTooLarge

def exponentSign : Reader Bool := do
  match ← peek with
  | some '+' =>
    let _ ← take
    pure false
  | some '-' =>
    let _ ← take
    pure true
  | _ => pure false

/-- An exponent, from its mark on. As soon as it goes beyond 31 bits the number is zero or too
large. -/
def exponentPart (negative : Bool) (significand : Nat) (exponent : Int) : Reader Number := do
  let _ ← take
  let below ← exponentSign
  match ← peek with
  | none => halt .endInValue
  | some c =>
    if !c.isDigit then haltAhead .wrongNumber
    else
      match ← modifyGet (exponentDigits 0) with
      | some e => real negative significand (if below then exponent - e else exponent + e)
      | none =>
        if significand ≠ 0 && !below then halt .numberTooLarge
        else
          let _ ← skipDigits
          pure (.real (if negative then -0.0 else 0.0))

/-- The end of a real: an exponent, or nothing more. -/
def realEnd (negative : Bool) (significand : Nat) (exponent : Int) : Reader Number := do
  match ← peek with
  | some c =>
    if isExponentMark c then exponentPart negative significand exponent
    else real negative significand exponent
  | none => real negative significand exponent

/-- The places of a real, from its point on. -/
def placesPart (negative : Bool) (significand : Nat) (exponent : Int) : Reader Number := do
  let _ ← take
  let (significand, count) ← modifyGet fun text =>
    let (significand, count, rest) := gather significand 0 text
    ((significand, count), rest)
  let dropped ← skipDigits
  if count = 0 && dropped = 0 then
    match ← peek with
    | some _ => haltAhead .wrongNumber
    | none => haltAhead .endInValue
  else realEnd negative significand (exponent - count)

/-- An integer that is not followed by places or an exponent. -/
def integer (negative : Bool) (n : Nat) : Number :=
  if !negative then .natural n
  else if 0 < n && Int64.minValue.toInt ≤ -(n : Int) then .negative (-n)
  else .real (-(Decimal.ofDecimal false n 0))

/-- What follows the digits before the point; `extra` of them did not fit. -/
def afterWhole (negative : Bool) (significand extra : Nat) : Reader Number := do
  match ← peek with
  | some c =>
    if c = '.' then placesPart negative significand extra
    else if isExponentMark c then exponentPart negative significand extra
    else if extra = 0 then pure (integer negative significand)
    else real negative significand extra
  | none =>
    if extra = 0 then pure (integer negative significand) else real negative significand extra

def magnitude (negative : Bool) : Reader Number := do
  match ← peek with
  | none => halt .endInValue
  | some c =>
    if c = '0' then
      let _ ← take
      if startsWithDigit (← get) then haltAhead .wrongNumber else afterWhole negative 0 0
    else if c.isDigit then
      let significand ← modifyGet fun text =>
        let (significand, _, rest) := gather 0 0 text
        (significand, rest)
      let extra ← skipDigits
      afterWhole negative significand extra
    else haltAhead .wrongNumber

def number : Reader Number := do
  match ← peek with
  | some '-' =>
    let _ ← take
    magnitude true
  | _ => magnitude false

/-! ## Passing over a number -/

def passExponent : Reader Unit := do
  let _ ← take
  let _ ← exponentSign
  if (← skipDigits) = 0 then haltAhead .wrongNumber

def passAfterWhole : Reader Unit := do
  match ← peek with
  | some c =>
    if c = '.' then
      let _ ← take
      if (← skipDigits) = 0 then haltAhead .wrongNumber
      else match ← peek with
        | some d => if isExponentMark d then passExponent else pure ()
        | none => pure ()
    else if isExponentMark c then passExponent
    else pure ()
  | none => pure ()

/-- Passes over a number without reading it: only its shape counts, and a number that is cut off
has no shape. -/
def passNumber : Reader Unit := do
  if (← peek) = some '-' then let _ ← take
  if (← peek) = some '0' then
    let _ ← take
    if startsWithDigit (← get) then haltAhead .wrongNumber else passAfterWhole
  else if (← skipDigits) = 0 then haltAhead .wrongNumber
  else passAfterWhole

end Reader

end StickArbiter.Json
