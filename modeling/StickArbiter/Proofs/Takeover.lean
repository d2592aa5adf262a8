import StickArbiter.Proofs.Publication

/-!
# When a takeover is shown

The detector remembers the axes of the last cycle if that was valid, and nothing otherwise.
-/

namespace StickArbiter

/-- Two sets of axes lie further apart than the threshold of a sensitivity. -/
def Axes.Apart (before after : Axes) (sensitivity : Float32) : Prop :=
  0.01 * sensitivity < (after.x - before.x).abs ∨ 0.01 * sensitivity < (after.y - before.y).abs ∨
    0.01 * sensitivity < (after.r - before.r).abs ∨
    0.01 * sensitivity < (after.z - before.z).abs * 2.0

theorem TakeoverDetector.moved_iff (before after : Axes) (sensitivity : Float32) :
    moved before after sensitivity = true ↔ before.Apart after sensitivity := by
  simp only [moved, Bool.or_eq_true, decide_eq_true_eq, or_assoc]
  rfl

/-! ## One cycle -/

namespace Arbiter

theorem takeover_observe (a : Arbiter) (f : Feed) : (a.observe f).takeover = a.takeover := by
  unfold observe begin
  cases f.parameters <;> rfl

theorem takeover_cycle (a : Arbiter) (f : Feed) (d : Downlink) :
    (a.cycle f d).arbiter.takeover.previous =
      if (a.cycle f d).arbiter.setpoint.valid then some (a.cycle f d).arbiter.setpoint.axes
      else none := by
  cases h : (a.observe f).setpoint.valid
  · have hlost : (a.cycle f d).arbiter.setpoint.valid = false := by
      rw [setpoint_cycle, if_neg (by simp [h]), h]
    rw [if_neg (by simp [hlost]), cycle_of_invalid a f d h]
    unfold handleInvalid
    cases (a.observe f).phase <;> rfl
  · have hvalid : (a.cycle f d).arbiter.setpoint.valid = true := by
      rw [setpoint_cycle, if_pos h]
      exact h
    rw [if_pos hvalid, cycle_of_valid a f d h]
    rfl

theorem userOverride_cycle {a : Arbiter} {p : Parameters} (hp : a.Configured p) (f : Feed)
    (d : Downlink) (h : (a.observe f).setpoint.valid = true) :
    (a.cycle f d).arbiter.setpoint.userOverride =
      a.takeover.shows (a.cycle f d).arbiter.setpoint.axes
        (f.parameters.getD p).overrideSensitivity := by
  rw [setpoint_cycle, if_pos h, ← (configured_observe hp f).parameters, ← a.takeover_observe f]
  rfl

end Arbiter

/-! ## The cycles of a run -/

namespace History

/-- The detector of an arbiter knows the last cycle of its run, unless that was lost. -/
theorem takeover_arbiter (past : History) :
    past.arbiter.takeover.previous =
      (past.cycles.getLast?.filter (·.arbiter.setpoint.valid)).map (·.arbiter.setpoint.axes) := by
  induction past with
  | create count p pollInterval => rfl
  | cycle past f d _ =>
    have hcycle : (past.cycle f d).arbiter.takeover.previous =
        if (past.cycle f d).arbiter.setpoint.valid then
          some (past.cycle f d).arbiter.setpoint.axes
        else none := past.arbiter.takeover_cycle f d
    rw [hcycle, cycles, List.getLast?_concat, Option.filter_some]
    split <;> rfl
  | apply past p ih => exact ih

theorem shows_iff (past : History) (a : Axes) (sensitivity : Float32) :
    past.arbiter.takeover.shows a sensitivity = true ↔
      ∃ c, past.cycles.getLast? = some c ∧ c.arbiter.setpoint.valid = true ∧
        c.arbiter.setpoint.axes.Apart a sensitivity := by
  rw [TakeoverDetector.shows, takeover_arbiter]
  cases hlast : past.cycles.getLast? with
  | none => simp
  | some c =>
    cases hv : c.arbiter.setpoint.valid <;>
      simp [hv, Option.filter_some, TakeoverDetector.moved_iff]

theorem published_of_valid {past c : History} (hlast : past.cycles.getLast? = some c)
    (hvalid : c.arbiter.setpoint.valid = true) : c.published = [c.arbiter.setpoint] := by
  obtain ⟨before, f, d, rfl⟩ := exists_cycle_of_mem past c (List.mem_of_getLast? hlast)
  rw [published_cycle, if_pos (Or.inl hvalid)]

/-- A valid cycle shows a takeover exactly if the cycle before was valid and published axes further
away than the sensitivity in effect allows. -/
theorem userOverride_iff (past : History) (f : Feed) (d : Downlink)
    (h : (past.cycle f d).arbiter.setpoint.valid = true) :
    ∃ sp, (past.cycle f d).published = [sp] ∧
      (sp.userOverride = true ↔ ∃ c before, past.cycles.getLast? = some c ∧
        c.arbiter.setpoint.valid = true ∧ c.published = [before] ∧
        before.axes.Apart sp.axes (past.cycle f d).inEffect.overrideSensitivity) ∧
      ((∀ c, past.cycles.getLast? = some c → c.arbiter.setpoint.valid = false) →
        sp.userOverride = false) := by
  have hshows : (past.cycle f d).arbiter.setpoint.userOverride = _ :=
    Arbiter.userOverride_cycle past.configured_arbiter f d ((past.valid_cycle f d).symm.trans h)
  have hiff := past.shows_iff (past.cycle f d).arbiter.setpoint.axes
    (past.cycle f d).inEffect.overrideSensitivity
  rw [inEffect, arbiter, ← hshows] at hiff
  refine ⟨_, by rw [published_cycle, if_pos (Or.inl h)], ?_, ?_⟩
  · rw [hiff]
    constructor
    · rintro ⟨c, hlast, hvalid, hapart⟩
      exact ⟨c, _, hlast, hvalid, published_of_valid hlast hvalid, hapart⟩
    · rintro ⟨c, before, hlast, hvalid, hbefore, hapart⟩
      obtain rfl := List.singleton_inj.mp ((published_of_valid hlast hvalid).symm.trans hbefore)
      exact ⟨c, hlast, hvalid, hapart⟩
  · intro hgap
    rw [← Bool.not_eq_true, hiff]
    rintro ⟨c, hlast, hvalid, -⟩
    cases (hgap c hlast).symm.trans hvalid

/-- Slot 0 is published at rest; slot 1 is held half over. -/
def atRest : History :=
  .cycle (.create 2 {} defaultPollInterval)
    { now := .zero
      sample := fun slot =>
        some { axes := ⟨if slot = 0 then 0 else 0.5, 0, 0, 0⟩, timestamp := .zero, source := .rc } }
    .open

/-- Slot 0 turns out unusable, and slot 1 takes its place. -/
def replaced : Feed :=
  { now := .ofMillis 100
    sample := fun slot =>
      if slot = 0 then
        some { axes := .zero, timestamp := .ofMillis 90, source := .rc, valid := false }
      else none }

/-- A change of slots counts as a movement like any other. -/
theorem userOverride_replaced :
    ∃ sp, (atRest.cycle replaced .open).published = [sp] ∧ sp.userOverride = true := by
  obtain ⟨sp, hsp, hiff, -⟩ := userOverride_iff atRest replaced .open (by decide +kernel)
  refine ⟨sp, hsp, hiff.mpr ⟨atRest, _, rfl, by decide +kernel, rfl, ?_⟩⟩
  obtain rfl := List.singleton_inj.mp hsp
  exact Or.inl (by decide +kernel)

end History

end StickArbiter
