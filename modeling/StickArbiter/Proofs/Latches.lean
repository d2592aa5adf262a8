import StickArbiter.Proofs.Confirmation
import StickArbiter.Proofs.Flips

/-!
# A detector that remembers more

A switch may keep its last input, and a detector what it reported: confirmed states and waits tell
both, so the reports are the same.
-/

namespace StickArbiter.Latched

/-! ## Switches -/

/-- A debounced switch with the input it was asked for last and the time at which that came. -/
structure Switch where
  state : Bool := false
  requested : Bool := false
  since : Instant := .zero
  delayFromTrue : Span := .zero
  delayFromFalse : Span := .zero

namespace Switch

def setDelayFrom (w : Switch) (state : Bool) (delay : Span) : Switch :=
  if state then { w with delayFromTrue := delay } else { w with delayFromFalse := delay }

def setDelay (w : Switch) (delay : Span) : Switch :=
  { w with delayFromTrue := delay, delayFromFalse := delay }

def delay (w : Switch) : Span := if w.state then w.delayFromTrue else w.delayFromFalse

def tick (w : Switch) (now : Instant) : Switch :=
  if w.requested ≠ w.state ∧ w.delay ≤ now.since w.since then { w with state := w.requested } else w

def note (w : Switch) (input : Bool) (now : Instant) : Switch :=
  if input = w.state then { w with requested := w.state }
  else if input = w.requested then w
  else { w with requested := input, since := now }

def feed (w : Switch) (input : Bool) (now : Instant) : Switch := (w.note input now).tick now

/-- A switch that asks for its own state does not wait, since whatever time that came. -/
def forget (w : Switch) : Debounce :=
  { confirmed := w.state
    pendingSince := if w.requested = w.state then none else some w.since
    delayFromTrue := w.delayFromTrue
    delayFromFalse := w.delayFromFalse }

theorem forget_setDelayFrom (w : Switch) (state : Bool) (delay : Span) :
    (w.setDelayFrom state delay).forget = w.forget.setDelayFrom state delay := by
  cases state <;> rfl

theorem forget_tick (w : Switch) (now : Instant) : (w.tick now).forget = w.forget.tick now := by
  have hdelay : w.forget.delay = w.delay := rfl
  unfold tick Debounce.tick
  rw [hdelay]
  by_cases hwaits : w.requested = w.state
  · simp [forget, hwaits]
  · have hflip : (!w.state) = w.requested := (Bool.eq_not.mpr hwaits).symm
    by_cases hlong : w.delay ≤ now.since w.since
    · simp [forget, hwaits, hlong, hflip]
    · simp [forget, hwaits, hlong]

theorem forget_note (w : Switch) (input : Bool) (now : Instant) :
    (w.note input now).forget = w.forget.note input now := by
  unfold note Debounce.note
  by_cases hsame : input = w.state
  · simp [forget, hsame]
  · by_cases hasked : input = w.requested
    · subst hasked
      simp [forget, hsame]
    · have hidle : w.requested = w.state := by
        cases input <;> cases hstate : w.state <;> cases hrequested : w.requested <;> simp_all
      simp [forget, hsame, hidle]

theorem forget_feed (w : Switch) (input : Bool) (now : Instant) :
    (w.feed input now).forget = w.forget.feed input now := by
  rw [feed, forget_tick, forget_note, Debounce.feed]

def step (w : Switch) : Debounce.Move → Switch
  | .feed input t => w.feed input t
  | .tick t => w.tick t
  | .setDelay delay => w.setDelay delay
  | .setDelayFrom state delay => w.setDelayFrom state delay

theorem forget_step (w : Switch) (m : Debounce.Move) : (w.step m).forget = w.forget.step m := by
  cases m with
  | feed input t => exact w.forget_feed input t
  | tick t => exact w.forget_tick t
  | setDelay delay => rfl
  | setDelayFrom state delay => exact w.forget_setDelayFrom state delay

/-- Over every run, both switches are in the same state. -/
theorem forget_after (w : Switch) (moves : List Debounce.Move) :
    (moves.foldl step w).forget = w.forget.after moves := by
  induction moves generalizing w with
  | nil => rfl
  | cons m moves ih =>
    rw [List.foldl_cons, ih, forget_step]
    rfl

end Switch

/-! ## The detector -/

/-- Both gestures, with what was last reported of them. -/
structure Detector where
  arm : Switch := {}
  disarm : Switch := {}
  armBefore : Bool := false
  disarmBefore : Bool := false

namespace Detector

def setDelay (d : Detector) (delay : Span) : Detector :=
  { d with arm := d.arm.setDelayFrom false delay, disarm := d.disarm.setDelayFrom false delay }

def withDelay (delay : Span) : Detector := setDelay {} delay

def feed (d : Detector) (a : Axes) (t : Instant) : Detector :=
  let shown := Geometry.ofAxes a
  let arm := d.arm.feed shown.arm t
  let disarm := d.disarm.feed shown.disarm t
  { arm := arm, disarm := disarm, armBefore := arm.state, disarmBefore := disarm.state }

def report (d : Detector) (a : Axes) (t : Instant) : GestureReport :=
  let after := d.feed a t
  { arm := after.arm.state
    disarm := after.disarm.state
    armRequested := after.arm.state && !d.armBefore
    disarmRequested := after.disarm.state && !d.disarmBefore }

def sightings : Detector → Span → List GestureDetector.Move → List GestureDetector.Sighting
  | _, _, [] => []
  | d, delay, .feed a t :: moves =>
    ⟨a, t, delay, d.report a t⟩ :: sightings (d.feed a t) delay moves
  | d, _, .setDelay delay :: moves => sightings (d.setDelay delay) delay moves

structure Stands (d : Detector) (g : GestureDetector) : Prop where
  arm : d.arm.forget = g.arm
  disarm : d.disarm.forget = g.disarm
  armBefore : d.armBefore = d.arm.state
  disarmBefore : d.disarmBefore = d.disarm.state

variable {d : Detector} {g : GestureDetector}

theorem Stands.setDelay (h : d.Stands g) (delay : Span) :
    (d.setDelay delay).Stands (g.setDelay delay) := by
  refine ⟨?_, ?_, h.armBefore, h.disarmBefore⟩
  · exact (d.arm.forget_setDelayFrom false delay).trans (by rw [h.arm]; rfl)
  · exact (d.disarm.forget_setDelayFrom false delay).trans (by rw [h.disarm]; rfl)

theorem Stands.feed (h : d.Stands g) (a : Axes) (t : Instant) :
    (d.feed a t).Stands (g.feed a t) := by
  refine ⟨?_, ?_, rfl, rfl⟩
  · exact (d.arm.forget_feed _ t).trans (by rw [h.arm]; rfl)
  · exact (d.disarm.forget_feed _ t).trans (by rw [h.disarm]; rfl)

theorem Stands.report (h : d.Stands g) (a : Axes) (t : Instant) : d.report a t = g.report a t := by
  obtain ⟨harm, hdisarm, -, -⟩ := h.feed a t
  simp only [Detector.report, GestureDetector.report, h.armBefore, h.disarmBefore, ← harm,
    ← hdisarm, ← h.arm, ← h.disarm]
  rfl

/-- Over every run of samples and changes of the delay, both detectors report the same. -/
theorem Stands.sightings (h : d.Stands g) (delay : Span) (moves : List GestureDetector.Move) :
    d.sightings delay moves = g.sightings delay moves := by
  induction moves generalizing d g delay with
  | nil => rfl
  | cons m moves ih =>
    cases m with
    | feed a t =>
      rw [Detector.sightings, GestureDetector.sightings, h.report a t, ih (h.feed a t)]
    | setDelay delay' => exact ih (h.setDelay delay') delay'

theorem stands_withDelay (delay : Span) : (withDelay delay).Stands (.withDelay delay) :=
  ⟨rfl, rfl, rfl, rfl⟩

theorem sightings_withDelay (delay : Span) (moves : List GestureDetector.Move) :
    (withDelay delay).sightings delay moves =
      (GestureDetector.withDelay delay).sightings delay moves :=
  (stands_withDelay delay).sightings delay moves

end Detector

end StickArbiter.Latched
