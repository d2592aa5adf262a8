import StickArbiter.Proofs.History

/-!
# Failing safe

However often a cycle selects anew, its setpoint is valid exactly if some slot is live at its end.
-/

namespace StickArbiter.History

/-- After every cycle the setpoint is valid exactly if some slot is live. It then shows the last
sample of such a slot, and otherwise it names none. -/
theorem valid_iff_exists_live (past : History) (f : Feed) (d : Downlink) :
    let now := past.cycle f d
    let sp := now.arbiter.setpoint
    (sp.valid = true ↔ ∃ slot, now.Live f.now slot) ∧
    (sp.valid = true → ∃ slot r, sp.slot = some slot ∧ now.Live f.now slot ∧
      now.last? slot = some r ∧ sp.axes = r.sample.axes ∧ sp.source = r.sample.source ∧
      sp.timestamp = f.now) ∧
    (sp.valid = false → sp.slot = none) := by
  intro now sp
  have hsp : sp = _ := past.arbiter.setpoint_cycle f d
  rcases past.observe_cases f d with ⟨slot, r, hlive, hread, hseen⟩ | ⟨hdead, hseen⟩
  · have hvalid : (past.arbiter.observe f).setpoint.valid = true := by rw [hseen]; rfl
    rw [if_pos hvalid] at hsp
    have hv : sp.valid = true := by rw [hsp]; exact hvalid
    refine ⟨iff_of_true hv ⟨slot, hlive⟩, fun _ => ⟨slot, r, ?_, hlive, hread, ?_, ?_, ?_⟩, ?_⟩
    · rw [hsp, Arbiter.composed, hseen]; rfl
    · rw [hsp, Arbiter.composed, hseen]; rfl
    · rw [hsp, Arbiter.composed, hseen]; rfl
    · rw [hsp]; rfl
    · intro h
      exact absurd (hv.symm.trans h) (by simp)
  · have hvalid : (past.arbiter.observe f).setpoint.valid = false := by rw [hseen]; rfl
    rw [if_neg (by simp [hvalid])] at hsp
    have hv : sp.valid = false := by rw [hsp]; exact hvalid
    refine ⟨iff_of_false (by simp [hv]) fun ⟨slot, h⟩ => hdead slot h, ?_, ?_⟩
    · intro h
      exact absurd (hv.symm.trans h) (by simp)
    · intro _
      rw [hsp, hseen]; rfl

end StickArbiter.History
