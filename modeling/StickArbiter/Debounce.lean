import StickArbiter.Time

/-!
# Debouncing

A debounced switch keeps a confirmed state. An input that differs from it starts a wait, and the
state changes once that wait has lasted the delay set for leaving the present state. An input equal
to the confirmed state ends the wait.
-/

namespace StickArbiter

/-- A switch that changes its state only after its input has differed for long enough. -/
structure Debounce where
  confirmed : Bool := false
  /-- When the input that still waits was first seen. -/
  pendingSince : Option Instant := none
  delayFromTrue : Span := .zero
  delayFromFalse : Span := .zero
deriving DecidableEq, Repr

namespace Debounce

def start (state : Bool) : Debounce := { confirmed := state }

def setDelayFrom (d : Debounce) (state : Bool) (delay : Span) : Debounce :=
  if state then { d with delayFromTrue := delay } else { d with delayFromFalse := delay }

def setDelay (d : Debounce) (delay : Span) : Debounce :=
  { d with delayFromTrue := delay, delayFromFalse := delay }

def delay (d : Debounce) : Span := if d.confirmed then d.delayFromTrue else d.delayFromFalse

/-- Lets time pass: the state changes if an input has waited long enough. -/
def tick (d : Debounce) (now : Instant) : Debounce :=
  match d.pendingSince with
  | none => d
  | some t =>
    if d.delay ≤ now.since t then { d with confirmed := !d.confirmed, pendingSince := none } else d

/-- Notes an input without letting time pass. -/
def note (d : Debounce) (input : Bool) (now : Instant) : Debounce :=
  if input = d.confirmed then { d with pendingSince := none }
  else { d with pendingSince := some (d.pendingSince.getD now) }

def feed (d : Debounce) (input : Bool) (now : Instant) : Debounce := (d.note input now).tick now

@[simp]
theorem note_confirmed (d : Debounce) (input : Bool) (now : Instant) :
    (d.note input now).confirmed = d.confirmed := by
  unfold note; split <;> rfl

theorem delays_feed (d : Debounce) (input : Bool) (now : Instant) :
    (d.feed input now).delayFromTrue = d.delayFromTrue ∧
      (d.feed input now).delayFromFalse = d.delayFromFalse := by
  have hn : (d.note input now).delayFromTrue = d.delayFromTrue ∧
      (d.note input now).delayFromFalse = d.delayFromFalse := by
    unfold note; split <;> exact ⟨rfl, rfl⟩
  rw [feed, ← hn.1, ← hn.2]
  unfold tick
  split
  · exact ⟨rfl, rfl⟩
  · split <;> exact ⟨rfl, rfl⟩

@[simp]
theorem delayFromTrue_feed (d : Debounce) (input : Bool) (now : Instant) :
    (d.feed input now).delayFromTrue = d.delayFromTrue := (d.delays_feed input now).1

@[simp]
theorem delayFromFalse_feed (d : Debounce) (input : Bool) (now : Instant) :
    (d.feed input now).delayFromFalse = d.delayFromFalse := (d.delays_feed input now).2

/-- An input equal to the confirmed state leaves nothing pending and changes nothing else. -/
theorem feed_confirmed (d : Debounce) (now : Instant) :
    d.feed d.confirmed now = { d with pendingSince := none } := by
  simp [feed, note, tick]

/-- A switch that is off turns on when its input, if it is on, has waited for the delay. -/
theorem feed_turns_on_iff (d : Debounce) (input : Bool) (now : Instant)
    (hoff : d.confirmed = false) :
    (d.feed input now).confirmed = true ↔
      input = true ∧ d.delayFromFalse ≤ now.since (d.pendingSince.getD now) := by
  cases input with
  | false => simp [feed, note, tick, hoff]
  | true =>
    by_cases hlong : d.delayFromFalse ≤ now.since (d.pendingSince.getD now)
    · simp [feed, note, tick, delay, hoff, hlong]
    · simp [feed, note, tick, delay, hoff, hlong]

/-- A switch that an input does not turn on was off, and waits since the first such input. -/
theorem feed_waits (d : Debounce) (now : Instant) (hoff : (d.feed true now).confirmed = false) :
    d.confirmed = false ∧ (d.feed true now).pendingSince = some (d.pendingSince.getD now) := by
  cases hd : d.confirmed with
  | true =>
    have hon := d.feed_confirmed now
    rw [hd] at hon
    rw [hon] at hoff
    simp at hoff
  | false =>
    have hearly : ¬ d.delayFromFalse ≤ now.since (d.pendingSince.getD now) := by
      intro hlong
      rw [(d.feed_turns_on_iff true now hd).mpr ⟨rfl, hlong⟩] at hoff
      cases hoff
    exact ⟨rfl, by simp [feed, note, tick, delay, hd, hearly]⟩

/-- Without a delay for turning off, a switch follows an input that is off at once. -/
theorem feed_false_of_no_delay (d : Debounce) (now : Instant) (h : d.delayFromTrue = .zero) :
    (d.feed false now).confirmed = false := by
  cases hd : d.confirmed with
  | false => simp [feed, note, tick, hd]
  | true =>
    have hlong : Span.zero ≤ now.since (d.pendingSince.getD now) := Nat.zero_le _
    simp [feed, note, tick, delay, hd, h, hlong]

/-- An input that is off leaves a switch that is off with nothing pending. -/
theorem pendingSince_feed_false (d : Debounce) (now : Instant)
    (hoff : (d.feed false now).confirmed = false) : (d.feed false now).pendingSince = none := by
  cases hd : d.confirmed with
  | false =>
    have hfeed := d.feed_confirmed now
    rw [hd] at hfeed
    rw [hfeed]
  | true =>
    by_cases hlong : d.delayFromTrue ≤ now.since (d.pendingSince.getD now)
    · simp [feed, note, tick, delay, hd, hlong]
    · simp [feed, note, tick, delay, hd, hlong] at hoff

/-- The same input at the same time changes nothing the second time. -/
theorem feed_feed (d : Debounce) (input : Bool) (now : Instant) :
    (d.feed input now).feed input now = d.feed input now := by
  by_cases hsame : input = d.confirmed
  · subst hsame
    simp [feed, note, tick]
  · by_cases hlong : d.delay ≤ now.since (d.pendingSince.getD now)
    · have hfeed : d.feed input now = { d with confirmed := input, pendingSince := none } := by
        have hinput : (!d.confirmed) = input := by
          cases input <;> cases hd : d.confirmed <;> simp_all
        simp only [delay] at hlong
        simp [feed, note, tick, delay, hsame, hlong, hinput]
      rw [hfeed]
      simp [feed, note, tick]
    · simp only [delay] at hlong
      simp [feed, note, tick, delay, hsame, hlong]

end Debounce

end StickArbiter
