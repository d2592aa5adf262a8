import Mathlib.Data.List.Chain
import StickArbiter.Proofs.History

/-!
# Holding a gesture

A request follows valid cycles that all show the gesture for the delay. Cycles without input do not
end such a hold.
-/

namespace StickArbiter

/-! ## One of the two gestures -/

/-- Whether axes show a gesture: the one that arms, or else the one that disarms. -/
def Geometry.shows (arm : Bool) (a : Axes) : Bool :=
  if arm then (ofAxes a).arm else (ofAxes a).disarm

def GestureDetector.of (g : GestureDetector) (arm : Bool) : Debounce :=
  if arm then g.arm else g.disarm

def GestureReport.requested (r : GestureReport) (arm : Bool) : Bool :=
  if arm then r.armRequested else r.disarmRequested

def Setpoint.gesture (sp : Setpoint) (arm : Bool) : Bool :=
  if arm then sp.armGesture else sp.disarmGesture

theorem GestureDetector.of_feed (g : GestureDetector) (arm : Bool) (a : Axes) (t : Instant) :
    (g.feed a t).of arm = (g.of arm).feed (Geometry.shows arm a) t := by
  cases arm <;> rfl

theorem GestureDetector.requested_report (g : GestureDetector) (arm : Bool) (a : Axes)
    (t : Instant) :
    (g.report a t).requested arm =
      (((g.of arm).feed (Geometry.shows arm a) t).confirmed && !(g.of arm).confirmed) := by
  cases arm <;> rfl

namespace Arbiter

theorem gesture_observe (a : Arbiter) (f : Feed) (arm : Bool) :
    ((a.observe f).gestures.of arm).confirmed = (a.gestures.of arm).confirmed ∧
      ((a.observe f).gestures.of arm).pendingSince = (a.gestures.of arm).pendingSince := by
  unfold observe begin
  cases f.parameters <;> cases arm <;> exact ⟨rfl, rfl⟩

theorem delay_observe {a : Arbiter} {p : Parameters} (h : a.Configured p) (f : Feed) (arm : Bool) :
    ((a.observe f).gestures.of arm).delayFromFalse = (f.parameters.getD p).armHysteresis := by
  have ho := configured_observe h f
  cases arm
  · exact ho.disarmDelay
  · exact ho.armDelay

theorem gesture_cycle (a : Arbiter) (f : Feed) (d : Downlink) (arm : Bool) :
    (a.cycle f d).arbiter.gestures.of arm =
      if (a.observe f).setpoint.valid then
        ((a.observe f).gestures.of arm).feed (Geometry.shows arm (a.observe f).setpoint.axes)
          (a.observe f).setpoint.timestamp
      else (a.observe f).gestures.of arm := by
  cases h : (a.observe f).setpoint.valid
  · rw [cycle_of_invalid a f d h, (handleInvalid_spec _ d).2.2, if_neg (by decide)]
  · rw [cycle_of_valid a f d h, if_pos rfl]
    exact GestureDetector.of_feed _ arm _ _

theorem mem_requests (report : GestureReport) (arm : Bool) :
    arm ∈ requests report ↔ report.requested arm = true := by
  cases arm <;> simp [requests, GestureReport.requested]

theorem request_mem_calls_iff (a : Arbiter) (f : Feed) (d : Downlink) (arm : Bool) :
    .command (.request arm f.now) ∈ (a.cycle f d).calls ↔
      (a.observe f).setpoint.valid = true ∧ (a.observe f).gestureReport.requested arm = true := by
  cases hv : (a.observe f).setpoint.valid
  · rw [cycle_of_invalid a f d hv]
    unfold handleInvalid
    cases (a.observe f).phase <;> simp
  · rw [cycle_of_valid a f d hv, ← mem_requests]
    simp only [publishValid, List.mem_append, List.mem_map, List.mem_singleton, reduceCtorEq,
      or_false, Call.command.injEq, true_and]
    constructor
    · rintro ⟨b, hmem, heq⟩
      have := congrArg Command.isArm heq
      rw [Command.isArm_request, Command.isArm_request] at this
      exact this ▸ hmem
    · exact fun h => ⟨arm, h, rfl⟩

end Arbiter

/-! ## Holds -/

namespace History

/-- When the sample that the setpoint shows was taken, on the clock of its input. -/
def stamp? (past : History) : Option Instant := past.shown?.map (·.timestamp)

def Shows (past : History) (arm : Bool) : Prop :=
  past.arbiter.setpoint.valid = true ∧ Geometry.shows arm past.arbiter.setpoint.axes = true

/-- Whether the setpoint shows a gesture that is not confirmed yet. -/
def Waits (past : History) (arm : Bool) : Prop :=
  past.Shows arm ∧ past.arbiter.setpoint.gesture arm = false

/-- The last cycles all show a gesture, the first of them at least `delay` before the last. -/
def Held (past : History) (arm : Bool) (delay : Span) : Prop :=
  ∃ before first rest t t', past.cycles = before ++ first :: rest ∧
    (∀ c ∈ first :: rest, c.Shows arm) ∧
    first.stamp? = some t ∧ past.stamp? = some t' ∧ delay ≤ t'.since t

/-- The same of the valid ones among the last cycles, the first of which is valid. -/
def HeldIfValid (past : History) (arm : Bool) (delay : Span) : Prop :=
  ∃ before first rest t t', past.cycles = before ++ first :: rest ∧
    first.Shows arm ∧ (∀ c ∈ rest, c.arbiter.setpoint.valid = true → c.Shows arm) ∧
    first.stamp? = some t ∧ past.stamp? = some t' ∧ delay ≤ t'.since t

def NeverLostWaiting (past : History) (arm : Bool) : Prop :=
  past.cycles.IsChain fun c next => c.Waits arm → next.arbiter.setpoint.valid = true

/-- The cycles since a wait began at `t`. -/
def WaitsSince (past : History) (arm : Bool) (t : Instant) : Prop :=
  ∃ before first rest, past.cycles = before ++ first :: rest ∧
    first.Shows arm ∧ first.stamp? = some t ∧
    (∀ c ∈ rest, c.arbiter.setpoint.valid = true → c.Shows arm) ∧
    (past.NeverLostWaiting arm → ∀ c ∈ rest, c.arbiter.setpoint.valid = true)

variable (past : History) (f : Feed) (d : Downlink) (arm : Bool)

theorem shows_cycle :
    (past.cycle f d).Shows arm ↔ (past.arbiter.observe f).setpoint.valid = true ∧
      Geometry.shows arm (past.arbiter.observe f).setpoint.axes = true := by
  have hsp : (past.cycle f d).arbiter.setpoint = _ := past.arbiter.setpoint_cycle f d
  rw [Shows, hsp]
  split <;> rfl

theorem stamp?_cycle (h : (past.arbiter.observe f).setpoint.valid = true) :
    (past.cycle f d).stamp? = some (past.arbiter.observe f).setpoint.timestamp := by
  obtain ⟨x, hx, -, ht⟩ := past.observe_of_valid f d h
  rw [stamp?, hx, ht]
  rfl

theorem of_getLast? {past c : History} (arm : Bool) (h : past.cycles.getLast? = some c) :
    c.arbiter.setpoint = past.arbiter.setpoint ∧
      (c.arbiter.gestures.of arm).confirmed = (past.arbiter.gestures.of arm).confirmed ∧
      (c.arbiter.gestures.of arm).pendingSince = (past.arbiter.gestures.of arm).pendingSince := by
  induction past with
  | create count p pollInterval => cases h
  | cycle past f d _ =>
    rw [cycles, List.getLast?_concat] at h
    cases h
    exact ⟨rfl, rfl, rfl⟩
  | apply past p ih =>
    obtain ⟨hs, hc, hp⟩ := ih h
    cases arm <;> exact ⟨hs, hc, hp⟩

theorem gesture_eq_confirmed (h : past.arbiter.setpoint.valid = true) :
    past.arbiter.setpoint.gesture arm = (past.arbiter.gestures.of arm).confirmed := by
  induction past with
  | create count p pollInterval => cases h
  | cycle past f d _ =>
    have hv := h
    rw [valid_cycle] at hv
    have hsp : (past.cycle f d).arbiter.setpoint = _ := past.arbiter.setpoint_cycle f d
    have hg : (past.cycle f d).arbiter.gestures.of arm = _ := past.arbiter.gesture_cycle f d arm
    rw [hsp, hg, if_pos hv, if_pos hv]
    cases arm <;> rfl
  | apply past p ih => cases arm <;> exact ih h

variable {past arm} {t : Instant}

theorem waitsSince_of_shows (hshows : (past.cycle f d).Shows arm)
    (hpast : ∀ t, (past.arbiter.gestures.of arm).pendingSince = some t → past.WaitsSince arm t) :
    (past.cycle f d).WaitsSince arm
      (((past.arbiter.gestures.of arm).pendingSince).getD
        (past.arbiter.observe f).setpoint.timestamp) := by
  have hvalid := ((past.shows_cycle f d arm).mp hshows).1
  cases hwait : (past.arbiter.gestures.of arm).pendingSince with
  | none =>
    refine ⟨past.cycles, past.cycle f d, [], rfl, hshows, past.stamp?_cycle f d hvalid, ?_, ?_⟩
    · simp
    · simp
  | some t =>
    obtain ⟨before, first, rest, hcycles, hfirst, hstamp, hrest, hwhole⟩ := hpast t hwait
    refine ⟨before, first, rest ++ [past.cycle f d], ?_, hfirst, hstamp, ?_, ?_⟩
    · simp [cycles, hcycles]
    · rw [List.forall_mem_append, List.forall_mem_singleton]
      exact ⟨hrest, fun _ => hshows⟩
    · intro hnever
      rw [List.forall_mem_append, List.forall_mem_singleton]
      exact ⟨hwhole (List.isChain_append.mp hnever).1, hshows.1⟩

theorem waitsSince_of_lost (hlost : (past.cycle f d).arbiter.setpoint.valid = false)
    (hoff : (past.arbiter.gestures.of arm).confirmed = false) (h : past.WaitsSince arm t) :
    (past.cycle f d).WaitsSince arm t := by
  obtain ⟨before, first, rest, hcycles, hfirst, hstamp, hrest, hwhole⟩ := h
  refine ⟨before, first, rest ++ [past.cycle f d], ?_, hfirst, hstamp, ?_, ?_⟩
  · simp [cycles, hcycles]
  · rw [List.forall_mem_append, List.forall_mem_singleton]
    exact ⟨hrest, by simp [hlost]⟩
  · -- The last cycle before this one waits, so this one would have to be valid.
    intro hnever
    obtain ⟨hpast, -, hnext⟩ := List.isChain_append.mp hnever
    have hall : ∀ c ∈ first :: rest, c.Shows arm :=
      List.forall_mem_cons.mpr ⟨hfirst, fun c hc => hrest c hc (hwhole hpast c hc)⟩
    have hlast : past.cycles.getLast? = some ((first :: rest).getLast (by simp)) := by
      rw [hcycles, List.getLast?_append_of_ne_nil _ (by simp), List.getLast?_eq_some_getLast]
    have hshows := hall _ (List.getLast_mem (by simp))
    obtain ⟨hsp, -, -⟩ := of_getLast? arm hlast
    have hwaits : ((first :: rest).getLast (by simp)).Waits arm := by
      refine ⟨hshows, ?_⟩
      rw [hsp, gesture_eq_confirmed past arm (hsp ▸ hshows.1)]
      exact hoff
    have hvalid := hnext _ hlast _ rfl hwaits
    rw [hlost] at hvalid
    cases hvalid

theorem waitsSince_of_pending (hoff : (past.arbiter.gestures.of arm).confirmed = false)
    (hwait : (past.arbiter.gestures.of arm).pendingSince = some t) : past.WaitsSince arm t := by
  induction past generalizing t with
  | create count p pollInterval => cases arm <;> cases hwait
  | cycle past f d ih =>
    obtain ⟨hconfirmed, hpending⟩ := past.arbiter.gesture_observe f arm
    have hg : (past.cycle f d).arbiter.gestures.of arm = _ := past.arbiter.gesture_cycle f d arm
    rw [hg] at hoff hwait
    cases hv : (past.arbiter.observe f).setpoint.valid with
    | false =>
      rw [hv, if_neg (by decide)] at hoff hwait
      rw [hconfirmed] at hoff
      rw [hpending] at hwait
      exact waitsSince_of_lost f d ((past.valid_cycle f d).trans hv) hoff (ih hoff hwait)
    | true =>
      rw [hv, if_pos rfl] at hoff hwait
      cases hin : Geometry.shows arm (past.arbiter.observe f).setpoint.axes with
      | false =>
        rw [hin] at hoff hwait
        rw [Debounce.pendingSince_feed_false _ _ hoff] at hwait
        cases hwait
      | true =>
        rw [hin] at hoff hwait
        obtain ⟨hwas, hsince⟩ := Debounce.feed_waits _ _ hoff
        rw [hconfirmed] at hwas
        rw [hsince, hpending] at hwait
        cases hwait
        exact waitsSince_of_shows f d ((past.shows_cycle f d arm).mpr ⟨hv, hin⟩) fun t => ih hwas
  | apply past p ih => cases arm <;> exact ih hoff hwait

/-! ## Requests -/

theorem request_sent_iff (past : History) (f : Feed) (d : Downlink) (arm : Bool) :
    .command (.request arm f.now) ∈ (past.outcome f d).calls ↔
      (past.cycle f d).Shows arm ∧ (past.arbiter.gestures.of arm).confirmed = false ∧
        (past.cycle f d).inEffect.armHysteresis ≤
          (past.arbiter.observe f).setpoint.timestamp.since
            ((past.arbiter.gestures.of arm).pendingSince.getD
              (past.arbiter.observe f).setpoint.timestamp) := by
  obtain ⟨hconfirmed, hpending⟩ := past.arbiter.gesture_observe f arm
  have hdelay : _ = (past.cycle f d).inEffect.armHysteresis :=
    Arbiter.delay_observe past.configured_arbiter f arm
  rw [outcome, Arbiter.request_mem_calls_iff, Arbiter.gestureReport,
    GestureDetector.requested_report, shows_cycle, ← hconfirmed, ← hpending, ← hdelay]
  simp only [Bool.and_eq_true, Bool.not_eq_true']
  constructor
  · rintro ⟨hvalid, hon, hoff⟩
    have hin := (Debounce.feed_turns_on_iff _ _ _ hoff).mp hon
    exact ⟨⟨hvalid, hin.1⟩, hoff, hin.2⟩
  · rintro ⟨⟨hvalid, hshows⟩, hoff, hlong⟩
    exact ⟨hvalid, (Debounce.feed_turns_on_iff _ _ _ hoff).mpr ⟨hshows, hlong⟩, hoff⟩

variable {f d}

theorem stamp?_of_shows (h : (past.cycle f d).Shows arm) :
    (past.cycle f d).stamp? = some (past.arbiter.observe f).setpoint.timestamp :=
  past.stamp?_cycle f d ((past.shows_cycle f d arm).mp h).1

theorem held_of_request_sent (h : .command (.request arm f.now) ∈ (past.outcome f d).calls) :
    (past.cycle f d).HeldIfValid arm (past.cycle f d).inEffect.armHysteresis ∧
      ((past.cycle f d).NeverLostWaiting arm →
        (past.cycle f d).Held arm (past.cycle f d).inEffect.armHysteresis) := by
  obtain ⟨hshows, hoff, hlong⟩ := (past.request_sent_iff f d arm).mp h
  obtain ⟨before, first, rest, hcycles, hfirst, hstamp, hrest, hwhole⟩ :=
    waitsSince_of_shows f d hshows fun t => waitsSince_of_pending hoff
  have hnow := stamp?_of_shows hshows
  refine ⟨⟨before, first, rest, _, _, hcycles, hfirst, hrest, hstamp, hnow, hlong⟩, ?_⟩
  intro hnever
  refine ⟨before, first, rest, _, _, hcycles, ?_, hstamp, hnow, hlong⟩
  rw [List.forall_mem_cons]
  exact ⟨hfirst, fun c hc => hrest c hc (hwhole hnever c hc)⟩

/-! ## Which waits are safe -/

def Pending (past : History) (arm : Bool) (t : Instant) : Prop :=
  (past.arbiter.gestures.of arm).confirmed = false ∧
    (past.arbiter.gestures.of arm).pendingSince = some t

/-- The last cycles all show a gesture, the first of them stamped `t` or earlier. -/
def ShownSince (past : History) (arm : Bool) (t : Instant) : Prop :=
  ∃ before first rest u, past.cycles = before ++ first :: rest ∧
    (∀ c ∈ first :: rest, c.Shows arm) ∧ first.stamp? = some u ∧ u ≤ t

theorem count_pos_of_pending (past : History) (arm : Bool) (t : Instant)
    (h : (past.arbiter.gestures.of arm).pendingSince = some t) : 0 < past.count := by
  induction past with
  | create count p pollInterval => cases arm <;> cases h
  | cycle past f d ih =>
    rcases past.observe_cases f d with ⟨slot, r, hlive, -, -⟩ | ⟨-, hseen⟩
    · exact lt_of_le_of_lt (Nat.zero_le slot) hlive.1
    · have hlost : (past.arbiter.observe f).setpoint.valid = false := by rw [hseen]; rfl
      have hg : (past.cycle f d).arbiter.gestures.of arm = _ := past.arbiter.gesture_cycle f d arm
      rw [hg, hlost, if_neg (by decide), (past.arbiter.gesture_observe f arm).2] at h
      exact ih h
  | apply past p ih => cases arm <;> exact ih h

def sticks (arm : Bool) : Axes := ⟨0, 0, 0, if arm then 1 else -1⟩

theorem shows_sticks (arm : Bool) : Geometry.shows arm (sticks arm) = true := by
  cases arm <;> decide +kernel

def showing (arm : Bool) (t : Instant) (p : Option Parameters) : Feed :=
  { now := t
    parameters := p
    sample := fun _ => some { axes := sticks arm, timestamp := t, source := .rc } }

theorem shows_showing (past : History) (arm : Bool) (t : Instant) (delay : Span) (d : Downlink)
    (hcount : 0 < past.count) :
    (past.cycle (showing arm t (some { armHysteresis := delay })) d).Shows arm ∧
      (past.arbiter.observe (showing arm t (some { armHysteresis := delay }))).setpoint.timestamp =
        t := by
  rw [shows_cycle]
  rcases past.observe_cases (showing arm t (some { armHysteresis := delay })) d with
    ⟨slot, r, -, hread, hseen⟩ | ⟨hdead, -⟩
  · cases hread
    rw [hseen]
    exact ⟨⟨rfl, shows_sticks arm⟩, rfl⟩
  · refine absurd ⟨hcount, _, rfl, rfl, rfl, ?_⟩ (hdead 0)
    change t.since t < Span.ofMillis 500
    rw [Instant.since_self]
    decide

theorem held_of_shows {past : History} {f : Feed} {d : Downlink} {arm : Bool} {delay : Span}
    (h : (past.cycle f d).Shows arm) (hdelay : delay ≤ Span.zero) :
    (past.cycle f d).Held arm delay := by
  have hstamp := stamp?_of_shows h
  refine ⟨past.cycles, past.cycle f d, [], _, _, rfl, ?_, hstamp, hstamp, ?_⟩
  · rw [List.forall_mem_singleton]
    exact h
  · rw [Instant.since_self]
    exact hdelay

theorem held_cases {past : History} {f : Feed} {d : Downlink} {arm : Bool} {delay : Span}
    (h : (past.cycle f d).Held arm delay) (hdelay : ¬ delay ≤ Span.zero) :
    ∃ before first rest u t', past.cycles = before ++ first :: rest ∧
      (∀ c ∈ first :: rest, c.Shows arm) ∧ first.stamp? = some u ∧
      (past.cycle f d).stamp? = some t' ∧ delay ≤ t'.since u := by
  obtain ⟨before, first, rest, u, t', hcycles, hall, hu, ht', hlong⟩ := h
  rcases List.eq_nil_or_concat' rest with rfl | ⟨rest, last, rfl⟩
  · have heq : past.cycle f d = first := (List.append_singleton_inj.mp hcycles).2
    rw [heq, hu] at ht'
    cases ht'
    rw [Instant.since_self] at hlong
    exact absurd hlong hdelay
  · rw [← List.cons_append, ← List.append_assoc] at hcycles
    rw [← List.cons_append, List.forall_mem_append] at hall
    exact ⟨before, first, rest, u, t', (List.append_singleton_inj.mp hcycles).1, hall.1, hu, ht',
      hlong⟩

theorem held_of_shownSince (past : History) (f : Feed) (d : Downlink) (arm : Bool)
    (hsafe : ∀ t, past.Pending arm t → t = .latest ∨ past.ShownSince arm t)
    (hsent : .command (.request arm f.now) ∈ (past.outcome f d).calls) :
    (past.cycle f d).Held arm (past.cycle f d).inEffect.armHysteresis := by
  obtain ⟨hshows, hoff, hlong⟩ := (past.request_sent_iff f d arm).mp hsent
  have hnow := stamp?_of_shows hshows
  cases hwait : (past.arbiter.gestures.of arm).pendingSince with
  | none =>
    rw [hwait, Option.getD_none, Instant.since_self] at hlong
    exact held_of_shows hshows hlong
  | some t =>
    rw [hwait, Option.getD_some] at hlong
    rcases hsafe t ⟨hoff, hwait⟩ with
      rfl | ⟨before, first, rest, u, hcycles, hall, hu, hle⟩
    · refine held_of_shows hshows (Span.le_trans hlong ?_)
      exact (Instant.since_le_zero_iff _ _).mpr (Instant.le_latest _)
    · refine ⟨before, first, rest ++ [past.cycle f d], u, _, ?_, ?_, hu, hnow, ?_⟩
      · simp [cycles, hcycles]
      · rw [← List.cons_append, List.forall_mem_append, List.forall_mem_singleton]
        exact ⟨hall, hshows⟩
      · exact Span.le_trans hlong (Instant.since_le_since _ hle)

/-- A request sent just as the delay is over is held only if the gesture was shown since the wait
began. -/
theorem shownSince_of_held (past : History) (arm : Bool) (t : Instant)
    (h : ∀ (f : Feed) (d : Downlink), .command (.request arm f.now) ∈ (past.outcome f d).calls →
      (past.cycle f d).Held arm (past.cycle f d).inEffect.armHysteresis)
    (hpending : past.Pending arm t) (hlatest : t ≠ .latest) : past.ShownSince arm t := by
  obtain ⟨hoff, ht⟩ := hpending
  have hpos := past.count_pos_of_pending arm t ht
  obtain ⟨hshows, htime⟩ := past.shows_showing arm .latest (Instant.latest.since t) .open hpos
  have hsent := (past.request_sent_iff _ .open arm).mpr
    ⟨hshows, hoff, by rw [ht, htime]; exact le_refl (Instant.latest.since t).nanos⟩
  have hdelay : ¬ Instant.latest.since t ≤ Span.zero := by
    rw [Instant.since_le_zero_iff]
    intro hle
    exact hlatest (Instant.ext (Nat.le_antisymm t.le_latest hle))
  obtain ⟨before, first, rest, u, t', hcycles, hall, hu, ht', hlong⟩ :=
    held_cases (h _ .open hsent) hdelay
  rw [stamp?_of_shows hshows, htime] at ht'
  cases ht'
  refine ⟨before, first, rest, u, hcycles, hall, hu, ?_⟩
  have hlong : Instant.latest.since t ≤ Instant.latest.since u := hlong
  have hmax := t.le_latest
  have hmax' := u.le_latest
  rw [Instant.le_def] at hmax hmax' ⊢
  rw [Span.le_def, Instant.since_nanos, Instant.since_nanos] at hlong
  omega

/-- A request follows a hold that only lost cycles break, and that nothing breaks if no input was
lost while a gesture waited. -/
theorem held_of_request (past : History) (arm : Bool) :
    (∀ (f : Feed) (d : Downlink), .command (.request arm f.now) ∈ (past.outcome f d).calls →
      (past.cycle f d).HeldIfValid arm (past.cycle f d).inEffect.armHysteresis ∧
        ((past.cycle f d).NeverLostWaiting arm →
          (past.cycle f d).Held arm (past.cycle f d).inEffect.armHysteresis)) ∧
    ((∀ (f : Feed) (d : Downlink), .command (.request arm f.now) ∈ (past.outcome f d).calls →
        (past.cycle f d).Held arm (past.cycle f d).inEffect.armHysteresis) ↔
      ∀ t, past.Pending arm t → t = .latest ∨ past.ShownSince arm t) := by
  refine ⟨fun _ _ hsent => held_of_request_sent hsent, fun h t hpending => ?_, ?_⟩
  · by_cases hlatest : t = .latest
    · exact Or.inl hlatest
    · exact Or.inr (past.shownSince_of_held arm t h hpending hlatest)
  · exact fun hsafe f d hsent => past.held_of_shownSince f d arm hsafe hsent

def lostInGesture : History :=
  .cycle (.cycle (.create 1 {} defaultPollInterval) (showing true .zero none) .open)
    { now := .ofMillis 600 } .open

theorem request_sent_lostInGesture :
    .command (.request true (Instant.ofMillis 1000)) ∈
      (lostInGesture.outcome (showing true (.ofMillis 1000) none) .open).calls := by
  decide +kernel

theorem held_of_request_lostInGesture :
    (lostInGesture.cycle (showing true (.ofMillis 1000) none) .open).HeldIfValid true
      (lostInGesture.cycle (showing true (.ofMillis 1000) none) .open).inEffect.armHysteresis :=
  ((held_of_request lostInGesture true).1 (showing true (.ofMillis 1000) none) .open
    request_sent_lostInGesture).1

/-- Two looks at the sticks with the input lost between them request arming. -/
theorem request_not_held_lostInGesture :
    .command (.request true (Instant.ofMillis 1000)) ∈
      (lostInGesture.outcome (showing true (.ofMillis 1000) none) .open).calls ∧
    ¬ (lostInGesture.cycle (showing true (.ofMillis 1000) none) .open).Held true
      (lostInGesture.cycle (showing true (.ofMillis 1000) none) .open).inEffect.armHysteresis := by
  refine ⟨request_sent_lostInGesture, fun h => ?_⟩
  obtain ⟨before, first, rest, -, -, hcycles, hall, -⟩ := held_cases h (by decide)
  have hlast := congrArg List.getLast? hcycles
  rw [List.getLast?_append_of_ne_nil _ (by simp)] at hlast
  have hshows := hall lostInGesture (List.mem_of_getLast? hlast.symm)
  have hlost : lostInGesture.arbiter.setpoint.valid = false := by decide +kernel
  cases hlost.symm.trans hshows.1

end History

end StickArbiter
