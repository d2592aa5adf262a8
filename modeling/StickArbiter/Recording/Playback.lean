import StickArbiter.Log
import StickArbiter.Recording.Basic
import StickArbiter.Time.Timeline

/-!
# Playback

A recording is played with the gaps that its samples were recorded with; a sample stamped before the
one that precedes it follows at once. What is sent bears the time of its sending.
-/

namespace StickArbiter

/-- How playback ends. -/
inductive PlaybackEnding
  /-- All samples are sent; the channel is kept as long as anybody listens. -/
  | finished (count : Nat)
  /-- A sample was due and nobody listened. -/
  | unheard
deriving DecidableEq, Repr

def PlaybackEnding.line : PlaybackEnding → LogLine
  | .finished count =>
    ⟨.info, "manual_control::sources::replay",
      "Replay finished after " ++ toString count ++ " samples"⟩
  | .unheard => ⟨.debug, "manual_control::sources::replay", "Bus closed, stopping replay"⟩

/-- What came of playing a recording. -/
structure Playback where
  sent : List (Timed Sample)
  ending : Timed PlaybackEnding
deriving DecidableEq

namespace Playback

/-- How playback is timed, in milliseconds unless it waits otherwise, and who listens. -/
structure Setting where
  /-- How long it takes to wait for a span. -/
  wait : Span → Nat := Span.millisCeil
  /-- What the clock shows at each time. -/
  clock : Nat → Instant
  /-- When the listener leaves, if it does: the last time at which it still hears. -/
  leaves : Option Nat := none

/-- Whether a sample due at a time is still heard. -/
def Setting.hears (s : Setting) (time : Nat) : Bool := s.leaves.all (time ≤ ·)

/-- When a sample is due that follows one stamped `previous` and sent at `time`. -/
def Setting.due (s : Setting) (time : Nat) (previous : Option Instant) (x : Sample) : Nat :=
  time + (previous.map fun p => s.wait (x.timestamp.since p)).getD 0

def rest (s : Setting) (count : Nat) : Nat → Option Instant → List Sample → Playback
  | time, _, [] => ⟨[], ⟨time, .finished count⟩⟩
  | time, previous, x :: xs =>
    let due := s.due time previous x
    if s.hears due then
      let p := rest s count due (some x.timestamp) xs
      { p with sent := ⟨due, { x with timestamp := s.clock due }⟩ :: p.sent }
    else ⟨[], ⟨due, .unheard⟩⟩

/-- When the channel is given up, if it is: at once where nobody listened, and else as soon as
nobody does. -/
def closes (p : Playback) (leaves : Option Nat) : Option Nat :=
  match p.ending.what with
  | .finished _ => leaves.map (max p.ending.time)
  | .unheard => some p.ending.time

end Playback

namespace Recording

/-- What comes of playing a recording from some time on. -/
def playFrom (r : Recording) (s : Playback.Setting) (start : Nat) : Playback :=
  Playback.rest s r.samples.length start none r.samples

def play (r : Recording) (s : Playback.Setting) : Playback := r.playFrom s 0

end Recording

end StickArbiter
