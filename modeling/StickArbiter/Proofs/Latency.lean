import StickArbiter.Proofs.Course
import StickArbiter.Proofs.Publication

/-!
# How old published input can be

A reading is aged from the cycle that took it. Before that, it waited on its line for no longer than
the longest interval between two cycles.
-/

namespace StickArbiter

theorem Instant.since_lt_add {now between earlier : Instant} {a b : Span}
    (h : now.since between < a) (h' : between.since earlier ≤ b) :
    (now.since earlier).nanos < a.nanos + b.nanos := by
  rw [Span.lt_def, since_nanos] at h
  rw [Span.le_def, since_nanos] at h'
  have hsplit : now.micros - earlier.micros ≤
      (now.micros - between.micros) + (between.micros - earlier.micros) := by omega
  calc (now.since earlier).nanos
      ≤ ((now.micros - between.micros) + (between.micros - earlier.micros)) * 1000 :=
        Nat.mul_le_mul_right 1000 hsplit
    _ = (now.micros - between.micros) * 1000 + (between.micros - earlier.micros) * 1000 :=
        Nat.add_mul _ _ _
    _ < a.nanos + b.nanos := Nat.add_lt_add_of_lt_of_le h h'

theorem History.live_of_valid {past : History} {f : Feed} {d : Downlink}
    (h : (past.cycle f d).arbiter.setpoint.valid = true) :
    ∃ slot r, (past.cycle f d).Live f.now slot ∧ (past.cycle f d).last? slot = some r ∧
      (past.cycle f d).arbiter.setpoint.slot = some slot ∧
      (past.cycle f d).arbiter.setpoint.axes = r.sample.axes ∧
      (past.cycle f d).arbiter.setpoint.source = r.sample.source := by
  have hsp : (past.cycle f d).arbiter.setpoint = _ := past.arbiter.setpoint_cycle f d
  rw [valid_cycle] at h
  rw [if_pos h] at hsp
  rcases past.observe_cases f d with ⟨slot, r, hlive, hread, hseen⟩ | ⟨-, hseen⟩
  · refine ⟨slot, r, hlive, hread, ?_⟩
    rw [hsp, Arbiter.composed, hseen]
    exact ⟨rfl, rfl, rfl⟩
  · rw [hseen] at h
    cases h

namespace Course

/-- A valid setpoint carries what was sent on its slot's line. If a cycle ran before that, it is
younger than the loss timeout and the longest interval together. -/
theorem age_of_published (c : Course) (now : Instant) (hordered : (c.cycle now).Ordered)
    (sp : Setpoint) (hpublished : sp ∈ (c.cycle now).history.published) (hvalid : sp.valid = true) :
    ∃ slot s x, sp.slot = some slot ∧ (c.cycle now).origin? slot = some s ∧ s.value = some x ∧
      sp.axes = x.axes ∧ sp.source = x.source ∧
      (s.past.history.cycles ≠ [] →
        (now.since s.time).nanos <
          (c.cycle now).history.inEffect.lossTimeout.nanos +
            (c.cycle now).status.maxInterval.nanos) := by
  obtain rfl : sp = (c.cycle now).history.arbiter.setpoint := by
    rw [history, History.published_cycle] at hpublished
    split at hpublished
    · exact List.mem_singleton.mp hpublished
    · cases hpublished
  obtain ⟨slot, r, hlive, hread, hslot, haxes, hsource⟩ := History.live_of_valid hvalid
  obtain ⟨s, hs, hvalue, hwaited⟩ := origin_of_reading hordered hlive.1 hread
  refine ⟨slot, s, r.sample, hslot, hs, hvalue, haxes, hsource, fun hcycles => ?_⟩
  have hfresh : now.since r.received < (c.cycle now).history.inEffect.lossTimeout := by
    obtain ⟨-, r', hread', -, -, hage⟩ := hlive
    cases hread.symm.trans hread'
    exact hage
  exact Instant.since_lt_add hfresh (hwaited hcycles)

def begun : Course := .cycle (.start 1 {} 1 {} defaultPollInterval) .zero

/-- A sample comes in 400 ms before the cycle that takes it. -/
def waited : Course :=
  .cycle (.send begun (.ofMillis 100) (.input 0)
    (some { axes := .zero, timestamp := .ofMillis 100, source := .rc })) (.ofMillis 500)

theorem origin?_waited :
    (waited.cycle (.ofMillis 950)).origin? 0 =
      some ⟨begun, .ofMillis 100,
        some { axes := .zero, timestamp := .ofMillis 100, source := .rc }⟩ := by
  have hcycle : ((waited.bus.pollInput? 0).isSome) = false := by decide +kernel
  have hwaited : (((begun.send (.ofMillis 100) (.input 0)
      (some { axes := .zero, timestamp := .ofMillis 100, source := .rc })).bus.pollInput?
        0).isSome) = true := by decide +kernel
  rw [origin?, hcycle, if_neg (by simp), waited, origin?, hwaited, if_pos rfl]
  rfl

/-- It is 850 ms old when it is published again, with a timeout of 500 ms. -/
theorem age_of_waited :
    ∃ sp ∈ (waited.cycle (.ofMillis 950)).history.published, sp.valid = true ∧
      ((Instant.ofMillis 950).since (.ofMillis 100)).nanos <
        (waited.cycle (.ofMillis 950)).history.inEffect.lossTimeout.nanos +
          (waited.cycle (.ofMillis 950)).status.maxInterval.nanos := by
  have hmem : (waited.cycle (.ofMillis 950)).history.arbiter.setpoint ∈
      (waited.cycle (.ofMillis 950)).history.published := by decide +kernel
  have hvalid : (waited.cycle (.ofMillis 950)).history.arbiter.setpoint.valid = true := by
    decide +kernel
  obtain ⟨slot, s, x, hslot, hs, -, -, -, hage⟩ :=
    age_of_published waited (.ofMillis 950) (by decide +kernel) _ hmem hvalid
  have hzero : (waited.cycle (.ofMillis 950)).history.arbiter.setpoint.slot = some 0 := by
    decide +kernel
  obtain rfl := Option.some.inj (hslot.symm.trans hzero)
  obtain rfl := Option.some.inj (origin?_waited.symm.trans hs)
  exact ⟨_, hmem, hvalid, hage (by decide +kernel)⟩

end Course

end StickArbiter
