import Mathlib.Data.List.DropRight
import StickArbiter.Proofs.Hold

/-!
# When a gesture counts

A gesture counts once an unbroken run of samples has shown it for the delay in effect, and is
requested once in that run.
-/

namespace StickArbiter

def GestureReport.held (r : GestureReport) (arm : Bool) : Bool := if arm then r.arm else r.disarm

namespace GestureDetector

theorem held_report (g : GestureDetector) (arm : Bool) (a : Axes) (t : Instant) :
    (g.report a t).held arm = ((g.of arm).feed (Geometry.shows arm a) t).confirmed := by
  cases arm <;> rfl

/-! ## Runs of samples -/

inductive Move
  | feed (a : Axes) (t : Instant)
  | setDelay (delay : Span)

/-- A sample with the delay in effect when it came and what was reported of it. -/
structure Sighting where
  axes : Axes
  time : Instant
  delay : Span
  report : GestureReport

def sightings : GestureDetector → Span → List Move → List Sighting
  | _, _, [] => []
  | g, delay, .feed a t :: moves =>
    ⟨a, t, delay, g.report a t⟩ :: sightings (g.feed a t) delay moves
  | g, _, .setDelay delay :: moves => sightings (g.setDelay delay) delay moves

/-- The last sightings, from the first on after which all show a gesture. -/
def run (arm : Bool) (xs : List Sighting) : List Sighting :=
  xs.rtakeWhile fun x => Geometry.shows arm x.axes

/-- A sighting of the run came late enough after the first one. -/
def Confirms (run : List Sighting) : Prop :=
  ∃ first, run.head? = some first ∧ ∃ x ∈ run, x.delay ≤ x.time.since first.time

theorem run_concat (arm : Bool) (xs : List Sighting) (x : Sighting) :
    run arm (xs ++ [x]) = if Geometry.shows arm x.axes then run arm xs ++ [x] else [] := by
  unfold run
  rw [List.rtakeWhile_concat]

theorem confirms_concat (xs : List Sighting) (x : Sighting) :
    Confirms (xs ++ [x]) ↔
      Confirms xs ∨ x.delay ≤ x.time.since ((xs.head?.map (·.time)).getD x.time) := by
  unfold Confirms
  cases xs with
  | nil => simp
  | cons first xs => simp [or_and_right, exists_or, or_assoc]

/-! ## What a debouncer knows of them -/

structure Knows (arm : Bool) (d : Debounce) (delay : Span) (xs : List Sighting) : Prop where
  release : d.delayFromTrue = .zero
  delay : d.delayFromFalse = delay
  confirmed : d.confirmed = true ↔ Confirms (run arm xs)
  held : d.confirmed = true ↔ ∃ x ∈ run arm xs, x.report.held arm = true
  pending : d.confirmed = false → d.pendingSince = (run arm xs).head?.map (·.time)

variable {arm : Bool} {g : GestureDetector} {delay : Span} {xs : List Sighting}

theorem knows_withDelay (arm : Bool) (delay : Span) :
    Knows arm ((withDelay delay).of arm) delay [] := by
  have hoff : ((withDelay delay).of arm).confirmed = false := by cases arm <;> rfl
  refine ⟨?_, ?_, ?_, ?_, ?_⟩
  · cases arm <;> rfl
  · cases arm <;> rfl
  · simp [hoff, run, Confirms]
  · simp [hoff, run]
  · cases arm <;> exact fun _ => rfl

theorem Knows.setDelay (h : Knows arm (g.of arm) delay xs) (delay' : Span) :
    Knows arm ((g.setDelay delay').of arm) delay' xs := by
  cases arm <;> exact ⟨h.release, rfl, h.confirmed, h.held, h.pending⟩

theorem Knows.feed_true (h : Knows arm (g.of arm) delay xs) (t : Instant) :
    (((g.of arm).feed true t).confirmed = true ↔
      (g.of arm).confirmed = true ∨
        delay ≤ t.since (((run arm xs).head?.map (·.time)).getD t)) ∧
    (((g.of arm).feed true t).confirmed = false →
      ((g.of arm).feed true t).pendingSince = some (((run arm xs).head?.map (·.time)).getD t)) := by
  cases hon : (g.of arm).confirmed with
  | true =>
    have hfeed := (g.of arm).feed_confirmed t
    rw [hon] at hfeed
    simp [hfeed]
  | false =>
    have hturns := (g.of arm).feed_turns_on_iff true t hon
    rw [h.delay, h.pending hon] at hturns
    refine ⟨by simpa using hturns, ?_⟩
    intro hoff
    rw [((g.of arm).feed_waits t hoff).2, h.pending hon]

theorem Knows.feed (h : Knows arm (g.of arm) delay xs) (a : Axes) (t : Instant) :
    Knows arm ((g.feed a t).of arm) delay (xs ++ [⟨a, t, delay, g.report a t⟩]) := by
  have hrelease : ((g.feed a t).of arm).delayFromTrue = .zero := by
    rw [of_feed, Debounce.delayFromTrue_feed, h.release]
  have hdelay : ((g.feed a t).of arm).delayFromFalse = delay := by
    rw [of_feed, Debounce.delayFromFalse_feed, h.delay]
  have hrun := run_concat arm xs ⟨a, t, delay, g.report a t⟩
  have hheld := g.held_report arm a t
  rw [of_feed] at hrelease hdelay ⊢
  cases hshows : Geometry.shows arm a with
  | false =>
    have hoff := (g.of arm).feed_false_of_no_delay t h.release
    simp only [hshows, Bool.false_eq_true, if_false] at hrun hrelease hdelay
    refine ⟨hrelease, hdelay, ?_, ?_, ?_⟩
    · simp [hoff, hrun, Confirms]
    · simp [hoff, hrun]
    · simp [hoff, hrun, Debounce.pendingSince_feed_false]
  | true =>
    obtain ⟨hturns, hwaits⟩ := h.feed_true t
    rw [hshows] at hrelease hdelay hheld
    simp only [hshows, if_true] at hrun
    refine ⟨hrelease, hdelay, ?_, ?_, ?_⟩
    · rw [hturns, hrun, confirms_concat, h.confirmed]
    · rw [hrun]
      simp only [List.mem_append, List.mem_singleton, or_and_right, exists_or, exists_eq_left,
        ← h.held, hheld]
      simp [hturns]
    · intro hoff
      rw [hwaits hoff, hrun]
      cases run arm xs <;> rfl

/-! ## The law of a gesture -/

theorem Knows.law (h : Knows arm (g.of arm) delay xs) (a : Axes) (t : Instant) :
    let x : Sighting := ⟨a, t, delay, g.report a t⟩
    (x.report.held arm = true ↔ Confirms (run arm (xs ++ [x]))) ∧
    (x.report.requested arm = true ↔
      x.report.held arm = true ∧
        ∀ y ∈ (run arm (xs ++ [x])).dropLast, y.report.held arm = false) := by
  intro x
  have hnext := h.feed a t
  have hheld : x.report.held arm = ((g.feed a t).of arm).confirmed := by
    rw [of_feed]
    exact g.held_report arm a t
  have hrequested : x.report.requested arm =
      (((g.feed a t).of arm).confirmed && !(g.of arm).confirmed) := by
    rw [of_feed]
    exact g.requested_report arm a t
  refine ⟨by rw [hheld, hnext.confirmed], ?_⟩
  rw [hrequested, hheld, Bool.and_eq_true, Bool.not_eq_true']
  refine and_congr_right fun hon => ?_
  have hshows : Geometry.shows arm a = true := by
    by_contra hhides
    have hrun := run_concat arm xs x
    rw [if_neg hhides] at hrun
    simp [hnext.confirmed, hrun, x, Confirms] at hon
  have hoff : (g.of arm).confirmed = false ↔ ∀ y ∈ run arm xs, y.report.held arm = false := by
    rw [← Bool.not_eq_true, h.held]
    simp
  rw [hoff, run_concat, if_pos hshows, List.dropLast_concat]

theorem law_of_sighting {moves : List Move} {before after : List Sighting} {x : Sighting}
    (h : Knows arm (g.of arm) delay xs) (hx : sightings g delay moves = before ++ x :: after) :
    (x.report.held arm = true ↔ Confirms (run arm (xs ++ before ++ [x]))) ∧
    (x.report.requested arm = true ↔
      x.report.held arm = true ∧
        ∀ y ∈ (run arm (xs ++ before ++ [x])).dropLast, y.report.held arm = false) := by
  induction moves generalizing g delay xs before with
  | nil => simp [sightings] at hx
  | cons m moves ih =>
    cases m with
    | setDelay delay' => exact ih (h.setDelay delay') hx
    | feed a t =>
      rw [sightings] at hx
      cases before with
      | nil =>
        obtain ⟨rfl, -⟩ := List.cons.inj hx
        rw [List.append_nil]
        exact h.law a t
      | cons y before =>
        obtain ⟨rfl, hrest⟩ := List.cons.inj hx
        simpa using ih (h.feed a t) hrest

/-- In an unbroken run of samples that show it, a gesture counts from the first sample on that comes
at least the delay in effect after the first one, and is requested with that sample. -/
theorem held_and_requested_iff (delay : Span) (moves : List Move) (before after : List Sighting)
    (x : Sighting) (hx : sightings (withDelay delay) delay moves = before ++ x :: after)
    (arm : Bool) :
    let run := run arm (before ++ [x])
    (x.report.held arm = true ↔ Geometry.shows arm x.axes = true ∧
      ∃ first, run.head? = some first ∧ ∃ y ∈ run, y.delay ≤ y.time.since first.time) ∧
    (x.report.requested arm = true ↔
      x.report.held arm = true ∧ ∀ y ∈ run.dropLast, y.report.held arm = false) ∧
    (Geometry.shows arm x.axes = false → x.report.held arm = false) ∧
    ¬ (x.report.held true = true ∧ x.report.held false = true) := by
  have hlaw := fun arm => law_of_sighting (knows_withDelay arm delay) hx
  have hshows : ∀ arm, x.report.held arm = true → Geometry.shows arm x.axes = true := by
    intro arm hheld
    by_contra hhides
    rw [(hlaw arm).1, List.nil_append, run_concat, if_neg hhides] at hheld
    simp [Confirms] at hheld
  refine ⟨⟨fun hheld => ⟨hshows arm hheld, (hlaw arm).1.mp hheld⟩, fun h => (hlaw arm).1.mpr h.2⟩,
    (hlaw arm).2, ?_, ?_⟩
  · intro hhides
    rw [← Bool.not_eq_true]
    intro hheld
    cases hhides.symm.trans (hshows arm hheld)
  · rintro ⟨harm, hdisarm⟩
    have hleft := Geometry.disarm_of_arm _ (hshows true harm)
    cases hleft.symm.trans (hshows false hdisarm)

def heldArming : List Sighting :=
  sightings (withDelay (.ofMillis 1000)) (.ofMillis 1000)
    [.feed (History.sticks true) (.ofMillis 0), .feed (History.sticks true) (.ofMillis 400),
      .setDelay (.ofMillis 300), .feed (History.sticks true) (.ofMillis 200),
      .feed (History.sticks true) (.ofMillis 350), .feed (History.sticks true) (.ofMillis 100)]

/-- The fourth sample is the first one late enough for the delay that is in effect when it comes. -/
theorem requested_heldArming :
    ∃ x, heldArming[3]? = some x ∧ x.report.held true = true ∧ x.report.requested true = true ∧
      x.report.held false = false := by
  have hsplit : heldArming = heldArming.take 3 ++ heldArming[3] :: heldArming.drop 4 := rfl
  obtain ⟨hheld, hrequested, -, hone⟩ := held_and_requested_iff _ _ _ _ _ hsplit true
  have hrun : run true (heldArming.take 3 ++ [heldArming[3]]) = _ :=
    List.rtakeWhile_eq_self_iff.mpr (by decide +kernel)
  rw [hrun] at hheld hrequested
  have hon := hheld.mpr ⟨History.shows_sticks true, _, rfl, by decide +kernel⟩
  refine ⟨_, rfl, hon, hrequested.mpr ⟨hon, by decide +kernel⟩, ?_⟩
  exact Bool.eq_false_iff.mpr fun hoff => hone ⟨hon, hoff⟩

end GestureDetector

end StickArbiter
