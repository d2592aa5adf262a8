import StickArbiter.Proofs.Requests
import StickArbiter.Proofs.Silence

/-!
# Cycles without news

A selected slot without news is shown again with the stamp of its sample, and a debouncer fed the
same input at the same time stays as it is.
-/

namespace StickArbiter

theorem GestureDetector.feed_feed (g : GestureDetector) (a : Axes) (t : Instant) :
    (g.feed a t).feed a t = g.feed a t := by
  simp [feed, Debounce.feed_feed]

theorem GestureDetector.report_of_fed {g : GestureDetector} {a : Axes} {t : Instant}
    (h : g.feed a t = g) :
    g.report a t =
      { arm := g.arm.confirmed, disarm := g.disarm.confirmed, armRequested := false,
        disarmRequested := false } := by
  simp [report, h]

theorem Selector.reading_of_selected {s : Selector} {now : Instant} {slot : Nat}
    (h : s.Settled now) (hs : s.selected = some slot) :
    ∃ r, s.reading? slot = some r ∧ s.setpoint = s.setpoint.showing slot r.sample := by
  rcases h with ⟨k, r, _, hread, hsp⟩ | ⟨_, hsp⟩
  · rw [selected, hsp] at hs
    obtain rfl : k = slot := by simpa [Setpoint.showing] using hs
    exact ⟨r, hread, hsp⟩
  · rw [selected, hsp] at hs
    simp [Setpoint.withoutInput] at hs

namespace Arbiter

/-- The setpoint shows a slot's last sample, and the arbiter has dealt with that sample. -/
structure Presents (a : Arbiter) (slot : Nat) (x : Sample) : Prop where
  reading : (a.selector.reading? slot).map (·.sample) = some x
  setpoint : a.setpoint =
    { timestamp := a.setpoint.timestamp, axes := x.axes, valid := true, source := x.source,
      armGesture := a.gestures.arm.confirmed, disarmGesture := a.gestures.disarm.confirmed,
      userOverride := a.setpoint.userOverride, slot := some slot }
  fed : a.gestures.feed x.axes x.timestamp = a.gestures
  takeover : a.takeover = ⟨some x.axes⟩
  phase : a.phase = .tracking
  lastSelected : a.lastSelected = some slot

variable {a : Arbiter} {f : Feed} {d : Downlink} {slot : Nat} {x : Sample}

theorem cycle_of_shown (h : (a.observe f).setpoint = (a.observe f).setpoint.showing slot x) :
    let seen := a.observe f
    let b := (a.cycle f d).arbiter
    let report := seen.gestures.report x.axes x.timestamp
    b = { seen with
      phase := .tracking, gestures := seen.gestures.feed x.axes x.timestamp,
      takeover := ⟨some x.axes⟩, selector := { seen.selector with setpoint := b.setpoint },
      lastSelected := some slot } ∧
    b.setpoint =
      { timestamp := f.now, axes := x.axes, valid := true, source := x.source,
        armGesture := report.arm, disarmGesture := report.disarm,
        userOverride := b.setpoint.userOverride, slot := some slot } ∧
    (a.cycle f d).calls =
      ((requests report).map fun arm => .command (.request arm f.now)) ++
        [.publish b.setpoint] := by
  intro seen b report
  obtain ⟨hvalid, haxes, hstamp, hsource, hslot⟩ : seen.setpoint.valid = true ∧
      seen.setpoint.axes = x.axes ∧ seen.setpoint.timestamp = x.timestamp ∧
      seen.setpoint.source = x.source ∧ seen.setpoint.slot = some slot := by
    rw [h]
    exact ⟨rfl, rfl, rfl, rfl, rfl⟩
  have hreport : seen.gestureReport = report := by
    rw [gestureReport, haxes, hstamp]
  have hsetpoint : b.setpoint = seen.composed f.now := by
    rw [setpoint_cycle, if_pos hvalid]
  refine ⟨?_, ?_, ?_⟩
  · rw [hsetpoint, ← haxes, ← hstamp, ← hslot]
    exact congrArg Outcome.arbiter (cycle_of_valid a f d hvalid)
  · simp [hsetpoint, composed, hreport, hvalid, haxes, hsource, hslot]
  · rw [calls_cycle_of_valid a f d hvalid, hreport]

theorem presents_cycle (hs : (a.cycle f d).arbiter.setpoint.slot = some slot) :
    ∃ x, (a.observe f).setpoint = (a.observe f).setpoint.showing slot x ∧
      (a.cycle f d).arbiter.Presents slot x := by
  rw [slot_cycle] at hs
  obtain ⟨r, hread, hshown⟩ :=
    Selector.reading_of_selected ((a.begin f).selector.settled_taken f) hs
  obtain ⟨harbiter, hsetpoint, -⟩ := cycle_of_shown (d := d) hshown
  have hgestures := congrArg Arbiter.gestures harbiter
  refine ⟨r.sample, hshown, ?_, ?_, ?_, ?_, ?_, ?_⟩
  · rw [selector_cycle]
    exact congrArg (Option.map (·.sample)) hread
  · rw [hsetpoint, hgestures]
    rfl
  · rw [hgestures, GestureDetector.feed_feed]
  · exact congrArg Arbiter.takeover harbiter
  · exact congrArg Arbiter.phase harbiter
  · exact congrArg Arbiter.lastSelected harbiter

/-- A sample that is shown again requests nothing and leaves the arbiter as it is. -/
theorem Presents.cycle {g : Feed} {e : Downlink} (h : a.Presents slot x)
    (hparameters : g.parameters = none)
    (hselector : (a.observe g).selector = a.selector.select g.now)
    (hs : (a.cycle g e).arbiter.setpoint.slot = some slot) :
    let b := (a.cycle g e).arbiter
    b.Presents slot x ∧ (a.cycle g e).calls = [.publish b.setpoint] ∧
    b.setpoint =
      { a.setpoint with timestamp := g.now, userOverride := b.setpoint.userOverride } ∧
    b = { a with selector := { a.selector with setpoint := b.setpoint }, status := b.status } := by
  intro b
  obtain ⟨y, hshown, hpresents⟩ := presents_cycle hs
  obtain rfl : y = x := by
    have hread := hpresents.reading
    rw [selector_cycle, hselector] at hread
    exact Option.some.inj (hread.symm.trans h.reading)
  have hobserve : a.observe g =
      { a with status := a.status.record g.now, selector := a.selector.select g.now } := by
    rw [← hselector]
    unfold observe begin
    rw [hparameters]
  obtain ⟨harbiter, hsetpoint, hcalls⟩ := cycle_of_shown (d := e) hshown
  simp only [hobserve, GestureDetector.report_of_fed h.fed, h.fed] at harbiter hsetpoint hcalls
  refine ⟨hpresents, hcalls, hsetpoint.trans ?_, harbiter.trans ?_⟩
  · rw [h.setpoint]
  · rw [congrArg Arbiter.status harbiter, ← h.takeover, ← h.phase, ← h.lastSelected]
    rfl

end Arbiter

namespace History

variable {past : History} {slot : Nat} {x : Sample} {steps : List (Feed × Downlink)}

theorem cycling_of_presents (h : past.arbiter.Presents slot x)
    (hsilent : ∀ g ∈ steps, g.1.Silent past.count)
    (hkept : ∀ c ∈ past.cycling steps, c.arbiter.setpoint.slot = some slot) :
    ∀ p g e, cycle p g e ∈ past.cycling steps →
      let a := past.arbiter
      let b := (p.cycle g e).arbiter
      (p.outcome g e).calls = [.publish b.setpoint] ∧
      b.setpoint =
        { a.setpoint with timestamp := g.now, userOverride := b.setpoint.userOverride } ∧
      b =
        { a with selector := { a.selector with setpoint := b.setpoint }, status := b.status } := by
  induction steps generalizing past with
  | nil => simp [cycling]
  | cons step steps ih =>
    obtain ⟨f, d⟩ := step
    simp only [cycling, List.forall_mem_cons] at hkept hsilent
    have hselector := past.selector_of_silent hsilent.1
    obtain ⟨hpresents, hcalls, hsetpoint, harbiter⟩ :=
      h.cycle (e := d) hsilent.1.parameters hselector hkept.1
    intro p g e hmem a b
    rcases List.mem_cons.mp hmem with hfirst | hmem
    · cases hfirst
      exact ⟨hcalls, hsetpoint, harbiter⟩
    · -- The first cycle leaves an arbiter that differs in what the later ones replace.
      have hnext : (past.cycle f d).arbiter.Presents slot x := hpresents
      have hlater := ih hnext hsilent.2 hkept.2 p g e hmem
      have hsp : (past.cycle f d).arbiter.setpoint = _ := hsetpoint
      have hfirst : (past.cycle f d).arbiter = _ := harbiter
      refine ⟨hlater.1, hlater.2.1.trans ?_, hlater.2.2.trans ?_⟩
      · rw [hsp]
      · rw [hfirst]

/-- Silent cycles that go on showing a slot publish what it showed, request nothing and change
nothing that the arbiter remembers but the counters. -/
theorem unchanged_without_news (past : History) (f : Feed) (d : Downlink) (slot : Nat)
    (steps : List (Feed × Downlink)) (hslot : (past.cycle f d).arbiter.setpoint.slot = some slot)
    (hsilent : ∀ g ∈ steps, g.1.Silent past.count)
    (hkept : ∀ c ∈ (past.cycle f d).cycling steps, c.arbiter.setpoint.slot = some slot) :
    ∀ p g e, cycle p g e ∈ (past.cycle f d).cycling steps →
      let a := (past.cycle f d).arbiter
      let b := (p.cycle g e).arbiter
      (p.outcome g e).calls = [.publish b.setpoint] ∧
      b.setpoint =
        { a.setpoint with timestamp := g.now, userOverride := b.setpoint.userOverride } ∧
      b.gestures = a.gestures ∧
      b =
        { a with selector := { a.selector with setpoint := b.setpoint }, status := b.status } := by
  obtain ⟨x, hpresents⟩ : ∃ x, (past.cycle f d).arbiter.Presents slot x := by
    obtain ⟨x, -, hpresents⟩ := Arbiter.presents_cycle hslot
    exact ⟨x, hpresents⟩
  intro p g e hmem a b
  obtain ⟨hcalls, hsetpoint, harbiter⟩ := cycling_of_presents hpresents hsilent hkept p g e hmem
  have hgestures := congrArg Arbiter.gestures harbiter
  exact ⟨hcalls, hsetpoint, hgestures, harbiter⟩

/-- Sticks that begin the gesture to arm, of an input that is slow to be given up. -/
def heldStill : History := .create 1 { lossTimeout := .ofMillis 60000 } defaultPollInterval

/-- A gesture seen once waits for good: five seconds later it is still not confirmed. -/
theorem unchanged_heldStill :
    let first := heldStill.cycle (showing true .zero none) .open
    let second := first.cycle (silentAt 2000).1 .open
    let third := second.cycle (silentAt 5000).1 .open
    (second.outcome (silentAt 5000).1 .open).calls = [.publish third.arbiter.setpoint] ∧
      third.arbiter.gestures = first.arbiter.gestures ∧
      third.arbiter.gestures.arm.pendingSince = some .zero := by
  intro first second third
  have hsilent : ∀ g ∈ [silentAt 2000, silentAt 5000], g.1.Silent 1 := by
    simp only [List.forall_mem_cons, List.not_mem_nil, false_implies, implies_true, and_true]
    exact ⟨⟨by rintro ⟨_, -, ⟨⟩⟩, rfl⟩, ⟨by rintro ⟨_, -, ⟨⟩⟩, rfl⟩⟩
  have hkept : ∀ c ∈ first.cycling [silentAt 2000, silentAt 5000],
      c.arbiter.setpoint.slot = some 0 := by
    decide +kernel
  obtain ⟨hcalls, -, hgestures, -⟩ :=
    unchanged_without_news heldStill (showing true .zero none) .open 0 _ (by decide +kernel) hsilent
      hkept second (silentAt 5000).1 .open (by simp [cycling, second, first, silentAt])
  exact ⟨hcalls, hgestures, by decide +kernel⟩

end History

end StickArbiter
