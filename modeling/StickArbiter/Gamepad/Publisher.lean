import StickArbiter.Gamepad.Sticks

/-!
# Publishing a gamepad

Each complete report is published as a sample, and so are the sticks as they stand whenever a timer
ticks after the first report; held sticks stay live that way. Switches are published with a report
whose buttons are not those published last.
-/

namespace StickArbiter.Gamepad

inductive Input
  | signal (s : Signal)
  /-- It is time to publish again. -/
  | tick
  /-- Nobody takes samples any more. -/
  | close
deriving DecidableEq, Repr

structure Emission where
  sample : Option Sample := none
  switches : Option Switches := none
  /-- Whether there is any use in going on. -/
  goesOn : Bool := true
deriving DecidableEq

/-- Buttons held: the left shoulder and the home button. -/
def Sticks.buttons (s : Sticks) : Bool × Bool := (s.leftShoulder, s.home)

/-- A publisher and what it has been told. -/
structure Publisher where
  deadzone : Float32
  /-- Whether it also publishes switches. -/
  hasSwitches : Bool := true
  sticks : Sticks := {}
  /-- Whether there was a report. -/
  hasReport : Bool := false
  /-- The buttons at the last report. -/
  reported : Option (Bool × Bool) := none
  /-- Whether anybody takes samples. -/
  isOpen : Bool := true
deriving DecidableEq

namespace Publisher

def next (p : Publisher) : Input → Publisher
  | .signal s =>
    let sticks := p.sticks.apply s
    if s = .report then
      { p with sticks := sticks, hasReport := true, reported := some sticks.buttons }
    else { p with sticks := sticks }
  | .tick => p
  | .close => { p with isOpen := false }

def sample (p : Publisher) (now : Instant) : Sample :=
  { axes := p.sticks.axes p.deadzone, timestamp := now, source := .joystick }

/-- What is published of the sticks, if there is anybody to take it. -/
def offer (p : Publisher) (now : Instant) : Option Sample :=
  if p.isOpen then some (p.sample now) else none

/-- The switches, unless they were published before. -/
def newSwitches (p : Publisher) (now : Instant) : Option Switches :=
  if p.hasSwitches && p.reported ≠ some p.sticks.buttons then some (p.sticks.switches now) else none

/-- What comes of an input at `now`. -/
def emits (p : Publisher) (now : Instant) : Input → Emission
  | .signal .report =>
    { sample := p.offer now, switches := p.newSwitches now, goesOn := p.isOpen }
  | .signal _ => {}
  | .tick => { sample := if p.hasReport then p.offer now else none, goesOn := p.isOpen }
  | .close => {}

def after (p : Publisher) (inputs : List Input) : Publisher := inputs.foldl next p

@[simp]
theorem after_append (p : Publisher) (xs ys : List Input) :
    p.after (xs ++ ys) = (p.after xs).after ys := List.foldl_append

end Publisher

end StickArbiter.Gamepad
