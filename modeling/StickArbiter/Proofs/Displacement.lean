import StickArbiter.Proofs.Failover
import StickArbiter.Proofs.Stickiness

/-!
# Losing a slot that is live again

A stale slot can be live again at the end of a cycle, and yet be lost to a sample for a slot below
it that comes first.
-/

namespace StickArbiter

/-- The cycle moves away from `slot` before its own sample comes, and has no reason to return. -/
structure Displaced (before after : Nat → Prop) (f : Feed) (slot : Nat) : Prop where
  stale : ¬ before slot
  early : f.Offers slot
  rival : (∃ k < slot, after k) ∨ ∃ c, IsLeast {k | slot < k ∧ before k} c ∧ after c

namespace Selector

variable {s : Selector} {f : Feed} {slot : Nat}

theorem lt_slotCount_of_isLive_taken (h : (s.taken f).isLive f.now slot = true) :
    slot < s.slotCount :=
  (taken_frame s f).2.2 ▸ lt_slotCount_of_isLive h

theorem selected_taking_stale_iff (hs : s.selected = some slot)
    (hleast : IsLeast {k | (s.taken f).isLive f.now k = true} slot)
    (hstale : ¬ s.isLive f.now slot = true) (hearly : f.Offers slot) (c : Nat) :
    (s.taking f slot).selected = some c ↔ IsLeast {k | slot < k ∧ s.isLive f.now k = true} c := by
  have hcount := lt_slotCount_of_isLive_taken hleast.1
  have hsettled := settled_taking s f slot hcount.le hearly
  have hlive := isLive_taking_low s f slot hleast
  have hdead : ∀ k < slot, (s.taken f).isLive f.now k = false := by
    intro k hk
    by_contra h
    have hle : slot ≤ k := hleast.2 (by simpa using h)
    omega
  have hlowest : (s.taking f slot).selected = (s.taking f slot).lowestLive? f.now := by
    rcases selected_taking_below s f slot slot (le_refl _) hcount.le hdead with h | h
    · have hin := (hlive slot).mp (isLive_of_selected hsettled (h.trans hs))
      exact absurd hin.2 hstale
    · exact h
  have habove : {k | (s.taking f slot).isLive f.now k = true} =
      {k | slot < k ∧ s.isLive f.now k = true} := by
    ext k
    change (s.taking f slot).isLive f.now k = true ↔ slot < k ∧ s.isLive f.now k = true
    rw [hlive k]
    refine and_congr_left fun hk => ⟨fun hle => ?_, Nat.le_of_lt⟩
    exact Nat.lt_of_le_of_ne hle fun heq => hstale (heq ▸ hk)
  rw [hlowest, lowestLive?_eq_some_iff, habove]

theorem selected_taking_ne (n : Nat) (hle : slot ≤ n) (hn : n ≤ s.slotCount)
    (hstale : ¬ s.isLive f.now slot = true) (hearly : f.Offers slot) {k : Nat} (hk : k < slot)
    (hlower : (s.taken f).isLive f.now k = true) : (s.taking f n).selected ≠ some slot := by
  induction n, hle using Nat.le_induction with
  | base =>
    intro h
    have hlive := isLive_of_selected (settled_taking s f slot hn hearly) h
    rw [isLive_taking s f slot slot hn, if_neg (lt_irrefl _)] at hlive
    exact hstale hlive
  | succ n hle ih =>
    have ih := ih (by omega)
    cases hx : f.sample n with
    | none => rwa [taking_succ_of_none s f n hx]
    | some x =>
      rcases selected_taking_succ s f n x (by omega) hx with ⟨c, hc, -, -, hs⟩ | ⟨-, hs⟩
      · rw [hs, ← hc]
        exact ih
      · rw [hs, Ne, lowestLive?_eq_some_iff]
        intro hleast
        have hstays : (s.taking f (n + 1)).isLive f.now k = true := by
          rw [isLive_taking s f (n + 1) k hn, if_pos (by omega)]
          exact hlower
        have hle : slot ≤ k := hleast.2 hstays
        omega

/-- A slot that is live at the end is lost exactly if it is displaced. -/
theorem selected_taken_iff (hsticky : s.mode.isSticky = true) (hs : s.selected = some slot)
    (hafter : (s.taken f).isLive f.now slot = true) :
    (s.taken f).selected = some slot ↔
      ¬ Displaced (fun k => s.isLive f.now k = true)
        (fun k => (s.taken f).isLive f.now k = true) f slot := by
  have hcount := lt_slotCount_of_isLive_taken hafter
  have hlater : ∀ i, slot < i → i ≤ s.slotCount → (s.taking f i).isLive f.now slot = true := by
    intro i hi hin
    rw [isLive_taking s f i slot hin, if_pos hi]
    exact hafter
  by_cases hbefore : s.isLive f.now slot = true
  · exact iff_of_true (selected_taken_of_live s f slot hsticky hs hbefore hafter)
      fun h => h.stale hbefore
  by_cases hearly : f.Offers slot
  · by_cases hlower : ∃ k < slot, (s.taken f).isLive f.now k = true
    · refine iff_of_false ?_ fun h => h ⟨hbefore, hearly, .inl hlower⟩
      obtain ⟨k, hk, hlive⟩ := hlower
      have hne := selected_taking_ne s.slotCount hcount.le (le_refl _) hbefore hearly hk hlive
      rwa [← taken_of_offers s f (hearly.mono hcount.le)] at hne
    · have hleast : IsLeast {k | (s.taken f).isLive f.now k = true} slot :=
        ⟨hafter, fun k hk => not_lt.mp fun hlt => hlower ⟨k, hlt, hk⟩⟩
      have hseen := selected_taking_stale_iff hs hleast hbefore hearly
      constructor
      · rintro hkept ⟨-, -, hrival⟩
        obtain ⟨c, hc, hlasting⟩ := hrival.resolve_left hlower
        have hmoved := selected_taken_of_taking s f slot c hcount.le hsticky ((hseen c).mpr hc)
          (fun i _ hi => isLive_taking_of_live s f i c hi hc.1.2 hlasting) hlasting
        have hslot : slot < c := hc.1.1
        rw [hkept, Option.some.injEq] at hmoved
        omega
      · intro hno
        rcases selected_taken_of_low s f slot slot hcount.le hleast hlater with h | h
        · -- What was selected when the slot's own sample came is still selected, and lives.
          have hsettled := s.settled_taken f
          obtain ⟨c, hc⟩ := Option.ne_none_iff_exists'.mp (selected_ne_none hsettled hafter)
          have hlowest := (hseen c).mp (h.symm.trans hc)
          exact absurd ⟨hbefore, hearly, .inr ⟨c, hlowest, isLive_of_selected hsettled hc⟩⟩ hno
        · exact h
  · have hquiet : (s.taking f slot).selected = some slot := by
      rw [taking_of_quiet s f slot hearly, hs]
    refine iff_of_true ?_ fun h => hearly h.early
    exact selected_taken_of_taking s f slot slot hcount.le hsticky hquiet hlater hafter

end Selector

namespace History

/-- A slot that is live at the end of a cycle in a sticky mode is kept unless it is displaced. -/
theorem slot_eq_iff_not_displaced {past : History} {f : Feed} {d : Downlink} {slot : Nat}
    (hsticky : (past.cycle f d).inEffect.mode.isSticky = true)
    (hselected : past.arbiter.setpoint.slot = some slot)
    (hlive : (past.cycle f d).Live f.now slot) :
    (past.cycle f d).arbiter.setpoint.slot = some slot ↔
      ¬ Displaced (past.LiveUnder (past.cycle f d).inEffect f.now)
        ((past.cycle f d).Live f.now) f slot := by
  have hmode := (Arbiter.configured_begin past.configured_arbiter f).mode
  have hslot : (past.cycle f d).arbiter.setpoint.slot = _ := past.arbiter.slot_cycle f d
  rw [hslot, Arbiter.selector_observe, ← past.live_observe f d, ← past.live_begin f d]
  exact Selector.selected_taken_iff (hmode ▸ hsticky) ((past.selected_begin f).trans hselected)
    ((past.isLive_observe_iff f d slot).mpr hlive)

end History

end StickArbiter
