import StickArbiter.Decimal.Rounding
import StickArbiter.Input.Sample
import StickArbiter.Input.Switches

/-!
# Sticks and buttons of a gamepad

A device reports one control at a time and closes a complete report with a marker. The raw values of
an axis run from 0 to 255 with 128 in the middle; a stick pushed forward reads 0.
-/

namespace StickArbiter.Gamepad

inductive Axis
  | leftX
  | leftY
  | rightX
  | rightY
deriving DecidableEq, Repr

inductive Button
  | leftShoulder
  | home
deriving DecidableEq, Repr

/-! The values of a device are numbers of 32 bits; of a longer one they hold the lowest bits. -/

instance coeToInt : Coe Int32 Int := ⟨Int32.toInt⟩

instance coeOfInt : Coe Int Int32 := ⟨Int32.ofInt⟩

/-- An event as the device numbers it. -/
structure Event where
  kind : Nat
  code : Nat
  value : Int32
deriving DecidableEq, Repr

inductive Signal
  | axis (which : Axis) (value : Int32)
  | button (which : Button) (pressed : Bool)
  /-- The report is complete. -/
  | report
  | other
deriving DecidableEq, Repr

def Axis.ofCode? : Nat → Option Axis
  | 0 => some .leftX
  | 1 => some .leftY
  | 2 => some .rightX
  | 5 => some .rightY
  | _ => none

def Button.ofCode? : Nat → Option Button
  | 310 => some .leftShoulder
  | 316 => some .home
  | _ => none

/-- Synchronisation is of kind 0, keys of kind 1 and absolute axes of kind 3. -/
def Event.signal (e : Event) : Signal :=
  match e.kind with
  | 0 => if e.code = 0 then .report else .other
  | 1 => match Button.ofCode? e.code with
    | some b => .button b (e.value ≠ 0)
    | none => .other
  | 3 => match Axis.ofCode? e.code with
    | some a => .axis a e.value
    | none => .other
  | _ => .other

/-- The raw values and the buttons held. At rest all axes are in the middle but the throttle, which
is at the bottom. -/
structure Sticks where
  leftX : Int32 := 128
  leftY : Int32 := 255
  rightX : Int32 := 128
  rightY : Int32 := 128
  leftShoulder : Bool := false
  home : Bool := false
deriving DecidableEq, Repr, Inhabited

namespace Sticks

def setAxis (s : Sticks) : Axis → Int32 → Sticks
  | .leftX, v => { s with leftX := v }
  | .leftY, v => { s with leftY := v }
  | .rightX, v => { s with rightX := v }
  | .rightY, v => { s with rightY := v }

def setButton (s : Sticks) : Button → Bool → Sticks
  | .leftShoulder, p => { s with leftShoulder := p }
  | .home, p => { s with home := p }

def apply (s : Sticks) : Signal → Sticks
  | .axis a v => s.setAxis a v
  | .button b p => s.setButton b p
  | .report => s
  | .other => s

end Sticks

/-! ## From raw values to axes -/

/-- The nearest number between two bounds. -/
def clamp (low high x : Float32) : Float32 :=
  let x := if x < low then low else x
  if high < x then high else x

/-- A raw value on the scale from -1 to 1. The distance from the middle wraps around at 32 bits. -/
def centred (raw : Int32) : Float32 := clamp (-1) 1 (Decimal.ofInt (raw - 128 : Int32) / 127)

/-- A raw value on the scale from 0 to 1; the lowest raw value is full throttle. -/
def throttle (raw : Int32) : Float32 := clamp 0 1 (1 - Decimal.ofInt raw / 255)

/-- One with the sign of a number, also for the two zeros. -/
def signOf (x : Float32) : Float32 :=
  if x.isNaN then x else if x.toBits < 0x80000000 then 1 else -1

/-- Takes what is within the dead zone as zero and stretches the rest, so that the end of the range
is still reached. -/
def outsideDeadzone (deadzone value : Float32) : Float32 :=
  if value.abs ≤ deadzone then 0
  else signOf value * (value.abs - deadzone) / (1 - deadzone)

/-- The axes that the sticks stand for. The left stick is throttle and yaw, the right one roll and
pitch. -/
def Sticks.axes (s : Sticks) (deadzone : Float32) : Axes :=
  { x := outsideDeadzone deadzone (centred s.rightX)
    y := outsideDeadzone deadzone (-(centred s.rightY))
    z := throttle s.leftY
    r := outsideDeadzone deadzone (centred s.leftX) }

/-- The switches that the buttons stand for. -/
def Sticks.switches (s : Sticks) (now : Instant) : Switches :=
  { timestamp := now, arm := .ofPressed s.leftShoulder, kill := .ofPressed s.home }

end StickArbiter.Gamepad
