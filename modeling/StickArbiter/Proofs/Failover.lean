import StickArbiter.Proofs.History

/-!
# Failing over

A cycle in a sticky mode that loses its slot ends on the lowest live one, unless an early sample
below made it select a slot above by an earlier reading.
-/

namespace StickArbiter

/-- Slot `c` takes over from `present` ahead of `low`, the lowest slot live after the deliveries. -/
structure Overtakes (before after : Nat → Prop) (present : Option Nat) (f : Feed) (low c : Nat) :
    Prop where
  fresh : ¬ before low
  early : f.Offers low
  loose : ∀ k, present = some k → before k → k < low
  lowest : IsLeast {k | low < k ∧ before k} c
  lasting : after c

namespace Selector

variable (s : Selector) (f : Feed) (low : Nat)

theorem isLive_of_isLive_succ (n k : Nat) (hn : n < low) (hlow : low ≤ s.slotCount)
    (hdead : ∀ k < low, (s.taken f).isLive f.now k = false)
    (h : (s.taking f (n + 1)).isLive f.now k = true) : (s.taking f n).isLive f.now k = true := by
  rw [isLive_taking s f _ k (by omega)] at h ⊢
  by_cases hk : k < n
  · rw [if_pos (by omega)] at h
    rwa [if_pos hk]
  · rw [if_neg hk]
    by_cases hkn : k = n
    · rw [if_pos (by omega), hkn, hdead n hn] at h
      cases h
    · rwa [if_neg (by omega)] at h

theorem selected_taking_below (n : Nat) (hn : n ≤ low) (hlow : low ≤ s.slotCount)
    (hdead : ∀ k < low, (s.taken f).isLive f.now k = false) :
    (s.taking f n).selected = s.selected ∨
      (s.taking f n).selected = (s.taking f n).lowestLive? f.now := by
  induction n with
  | zero => exact Or.inl rfl
  | succ n ih =>
    have ih := ih (by omega)
    cases hx : f.sample n with
    | none => rw [taking_succ_of_none s f n hx]; exact ih
    | some x =>
      rcases selected_taking_succ s f n x (by omega) hx with ⟨k, hk, -, hlive, hs⟩ | ⟨-, hs⟩
      · rcases ih with ih | ih
        · exact Or.inl (by rw [hs, ← hk, ih])
        · right
          rw [hk, eq_comm, lowestLive?_eq_some_iff] at ih
          rw [hs, eq_comm, lowestLive?_eq_some_iff]
          refine ⟨hlive, fun j hj => ih.2 ?_⟩
          exact isLive_of_isLive_succ s f low n j (by omega) hlow hdead hj
      · exact Or.inr hs

theorem selected_taken_of_low (m : Nat) (hm : m ≤ s.slotCount)
    (hleast : IsLeast {k | (s.taken f).isLive f.now k = true} low)
    (hlow : ∀ i, m < i → i ≤ s.slotCount → (s.taking f i).isLive f.now low = true) :
    (s.taken f).selected = (s.taking f m).selected ∨ (s.taken f).selected = some low := by
  rw [taken_eq] at hleast ⊢
  rw [selected_select]
  rcases choice?_cases (s.taking f s.slotCount) f.now with ⟨k, hk, -, hlive, hs⟩ | ⟨-, hs⟩
  · rw [hs, ← hk]
    rcases selected_taking_of_low s f m s.slotCount low hm (le_refl _) hlow with h | ⟨c, hc, h⟩
    · exact Or.inl h
    · rw [hk] at h
      cases h
      have hle : low ≤ k := hleast.2 hlive
      exact Or.inr (by rw [hk, le_antisymm hc hle])
  · right
    rw [hs, lowestLive?_eq_some_iff]
    exact hleast

theorem offered_of_fresh (hleast : IsLeast {k | (s.taken f).isLive f.now k = true} low)
    (hfresh : ¬ s.isLive f.now low = true) : f.Offers s.slotCount := by
  by_contra hquiet
  have hlive : (s.taken f).isLive f.now low = true := hleast.1
  rw [taken_of_quiet s f hquiet] at hlive
  exact hfresh hlive

theorem isLive_taking_low (hleast : IsLeast {k | (s.taken f).isLive f.now k = true} low) (k : Nat) :
    (s.taking f low).isLive f.now k = true ↔ low ≤ k ∧ s.isLive f.now k = true := by
  have hcount : low < s.slotCount := (taken_frame s f).2.2 ▸ lt_slotCount_of_isLive hleast.1
  rw [isLive_taking s f low k (by omega)]
  by_cases hk : k < low
  · rw [if_pos hk]
    constructor
    · intro h
      have : low ≤ k := hleast.2 h
      omega
    · omega
  · rw [if_neg hk]
    exact ⟨fun h => ⟨by omega, h⟩, fun h => h.2⟩

theorem selected_taking_low (hsticky : s.mode.isSticky = true)
    (hleast : IsLeast {k | (s.taken f).isLive f.now k = true} low)
    (hlost : ∀ k, s.selected = some k → ¬ (s.taken f).isLive f.now k = true) (c : Nat)
    (hfresh : ¬ s.isLive f.now low = true) (hc : (s.taken f).isLive f.now c = true) :
    (s.taking f low).selected = some c ↔
      f.Offers low ∧ (∀ k, s.selected = some k → s.isLive f.now k = true → k < low) ∧
        IsLeast {k | low < k ∧ s.isLive f.now k = true} c := by
  have hcount : low < s.slotCount := (taken_frame s f).2.2 ▸ lt_slotCount_of_isLive hleast.1
  have hdead : ∀ k < low, (s.taken f).isLive f.now k = false := by
    intro k hk
    by_contra hlive
    have : low ≤ k := hleast.2 (by simpa using hlive)
    omega
  have hbelow := isLive_taking_low s f low hleast
  have habove : ∀ k, low ≤ k → s.isLive f.now k = true → low < k := by
    intro k hk hlive
    rcases Nat.lt_or_eq_of_le hk with h | rfl
    · exact h
    · exact absurd hlive hfresh
  constructor
  · intro hs
    have hearly : f.Offers low := by
      by_contra hquiet
      rw [taking_of_quiet s f low hquiet] at hs
      exact hlost c hs hc
    refine ⟨hearly, ?_, ?_⟩
    · intro k hk hlive
      by_contra hge
      have hstays : (s.taking f low).selected = some k := by
        refine selected_taking_of_live s f 0 low k (by omega) (by omega) hsticky hk ?_
        intro i _ hi
        rw [isLive_taking s f i k (by omega), if_neg (by omega)]
        exact hlive
      rw [hs] at hstays
      cases hstays
      exact hlost c hk hc
    · rcases selected_taking_below s f low low (le_refl _) (by omega) hdead with h | h
      · rw [hs] at h
        exact absurd hc (hlost c h.symm)
      · rw [hs, eq_comm, lowestLive?_eq_some_iff] at h
        have hin := (hbelow c).mp h.1
        refine ⟨⟨habove c hin.1 hin.2, hin.2⟩, fun j hj => h.2 ?_⟩
        exact (hbelow j).mpr ⟨by have := hj.1; omega, hj.2⟩
  · rintro ⟨hearly, hloose, hlowest⟩
    have hsettled := settled_taking s f low (by omega) hearly
    have hclive := (hbelow c).mpr ⟨by have := hlowest.1.1; omega, hlowest.1.2⟩
    rcases selected_taking_below s f low low (le_refl _) (by omega) hdead with h | h
    · cases hp : s.selected with
      | none => exact absurd (h.trans hp) (selected_ne_none hsettled hclive)
      | some k =>
        have hk := (hbelow k).mp (isLive_of_selected hsettled (h.trans hp))
        have := hloose k hp hk.2
        omega
    · rw [h, lowestLive?_eq_some_iff]
      refine ⟨hclive, fun j hj => hlowest.2 ?_⟩
      have hin := (hbelow j).mp hj
      exact ⟨habove j hin.1 hin.2, hin.2⟩

theorem selected_taken_of_overtakes (hsticky : s.mode.isSticky = true)
    (hleast : IsLeast {k | (s.taken f).isLive f.now k = true} low)
    (hlost : ∀ k, s.selected = some k → ¬ (s.taken f).isLive f.now k = true) (c : Nat)
    (h : Overtakes (fun k => s.isLive f.now k = true)
      (fun k => (s.taken f).isLive f.now k = true) s.selected f low c) :
    (s.taken f).selected = some c := by
  obtain ⟨hfresh, hearly, hloose, hlowest, hlasting⟩ := h
  have hcount : low < s.slotCount := (taken_frame s f).2.2 ▸ lt_slotCount_of_isLive hleast.1
  have hseen := (selected_taking_low s f low hsticky hleast hlost c hfresh hlasting).mpr
    ⟨hearly, hloose, hlowest⟩
  rw [taken_of_offers s f (offered_of_fresh s f low hleast hfresh)]
  refine selected_taking_of_live s f low s.slotCount c (by omega) (le_refl _) hsticky hseen ?_
  intro i _ hi
  exact isLive_taking_of_live s f i c hi hlowest.1.2 hlasting

theorem selected_taken_of_not_overtakes (hsticky : s.mode.isSticky = true)
    (hleast : IsLeast {k | (s.taken f).isLive f.now k = true} low)
    (hlost : ∀ k, s.selected = some k → ¬ (s.taken f).isLive f.now k = true)
    (hno : ∀ c, ¬ Overtakes (fun k => s.isLive f.now k = true)
      (fun k => (s.taken f).isLive f.now k = true) s.selected f low c) :
    (s.taken f).selected = some low := by
  have hsettled := s.settled_taken f
  have hcount : low < s.slotCount := (taken_frame s f).2.2 ▸ lt_slotCount_of_isLive hleast.1
  obtain ⟨c, hc⟩ := Option.ne_none_iff_exists'.mp (selected_ne_none hsettled hleast.1)
  have hclive := isLive_of_selected hsettled hc
  by_cases hbefore : s.isLive f.now low = true
  · have hlow : ∀ i, 0 < i → i ≤ s.slotCount → (s.taking f i).isLive f.now low = true := by
      intro i _ hi
      exact isLive_taking_of_live s f i low hi hbefore hleast.1
    rcases selected_taken_of_low s f low 0 (by omega) hleast hlow with h | h
    · exact absurd hclive (hlost c (h.symm.trans hc))
    · exact h
  · have hlow : ∀ i, low < i → i ≤ s.slotCount →
        (s.taking f i).isLive f.now low = true := by
      intro i hi hin
      rw [isLive_taking s f i low hin, if_pos hi]
      exact hleast.1
    rcases selected_taken_of_low s f low low (by omega) hleast hlow with h | h
    · -- What was selected before the lowest slot was heard has overtaken it.
      have hseen := (selected_taking_low s f low hsticky hleast hlost c hbefore hclive).mp
        (h.symm.trans hc)
      exact absurd ⟨hbefore, hseen.1, hseen.2.1, hseen.2.2, hclive⟩ (hno c)
    · exact h

end Selector

namespace History

/-- If the slot selected before a cycle is not live at its end, the cycle ends on the lowest slot
that is, or on the one slot that overtakes it. -/
theorem slot_of_lost (past : History) (f : Feed) (d : Downlink) (low : Nat)
    (hsticky : (past.cycle f d).inEffect.mode.isSticky = true)
    (hleast : IsLeast {k | (past.cycle f d).Live f.now k} low)
    (hlost : ∀ k, past.arbiter.setpoint.slot = some k → ¬ (past.cycle f d).Live f.now k) :
    (∀ c, Overtakes (past.LiveUnder (past.cycle f d).inEffect f.now)
        ((past.cycle f d).Live f.now) past.arbiter.setpoint.slot f low c →
      (past.cycle f d).arbiter.setpoint.slot = some c) ∧
    ((∀ c, ¬ Overtakes (past.LiveUnder (past.cycle f d).inEffect f.now)
        ((past.cycle f d).Live f.now) past.arbiter.setpoint.slot f low c) →
      (past.cycle f d).arbiter.setpoint.slot = some low) := by
  have hmode := (Arbiter.configured_begin past.configured_arbiter f).mode
  have hslot : (past.cycle f d).arbiter.setpoint.slot = _ := past.arbiter.slot_cycle f d
  rw [hslot, Arbiter.selector_observe]
  rw [← past.live_observe f d] at hleast hlost ⊢
  rw [← past.live_begin f d, ← past.selected_begin f]
  rw [← past.selected_begin f] at hlost
  exact ⟨Selector.selected_taken_of_overtakes _ f low (hmode ▸ hsticky) hleast hlost,
    Selector.selected_taken_of_not_overtakes _ f low (hmode ▸ hsticky) hleast hlost⟩

def twoHeard : History :=
  .cycle (.create 3 {} defaultPollInterval)
    { now := .zero
      sample := fun k =>
        if k = 1 then none else some { axes := .zero, timestamp := .zero, source := .rc } }
    .open

/-- Slot 0 turns unusable in the cycle in which slot 1 is first heard. -/
def handover : Feed :=
  { now := .ofMillis 100
    sample := fun k =>
      if k = 2 then none
      else some { axes := .zero, timestamp := .zero, source := .rc, valid := k = 1 } }

theorem isLeast_handover :
    IsLeast {k | (twoHeard.cycle handover .open).Live handover.now k} 1 := by
  refine ⟨⟨by decide, _, rfl, rfl, rfl, by decide⟩, ?_⟩
  rintro k ⟨-, r, hr, hvalid, -⟩
  by_contra hk
  have hk : k = 0 := by omega
  subst hk
  cases hr
  cases hvalid

theorem lost_handover (k : Nat) (h : twoHeard.arbiter.setpoint.slot = some k) :
    ¬ (twoHeard.cycle handover .open).Live handover.now k := by
  have h0 : twoHeard.arbiter.setpoint.slot = some 0 := by decide +kernel
  rw [h0] at h
  cases h
  rintro ⟨-, r, hr, hvalid, -⟩
  cases hr
  cases hvalid

theorem overtakes_handover :
    Overtakes (twoHeard.LiveUnder (twoHeard.cycle handover .open).inEffect handover.now)
      ((twoHeard.cycle handover .open).Live handover.now) twoHeard.arbiter.setpoint.slot
      handover 1 2 := by
  have hbefore : twoHeard.LiveUnder (twoHeard.cycle handover .open).inEffect handover.now 2 :=
    ⟨by decide, _, rfl, rfl, rfl, by decide⟩
  refine ⟨?_, ⟨0, by decide, rfl⟩, ?_, ⟨⟨by decide, hbefore⟩, ?_⟩, ?_⟩
  · rintro ⟨-, r, hr, -⟩
    cases hr
  · intro k hk _
    have h0 : twoHeard.arbiter.setpoint.slot = some 0 := by decide +kernel
    rw [h0] at hk
    cases hk
    decide
  · rintro k ⟨hk, -⟩
    exact hk
  · exact ⟨by decide, _, rfl, rfl, rfl, by decide⟩

theorem slot_of_lost_handover :
    (twoHeard.cycle handover .open).arbiter.setpoint.slot = some 2 :=
  (slot_of_lost twoHeard handover .open 1 rfl isLeast_handover lost_handover).1 2 overtakes_handover

/-- The lowest live slot need not take over: slot 2 is selected before slot 1 is heard. -/
theorem slot_of_lost_not_lowest :
    ¬ ∀ (past : History) (f : Feed) (d : Downlink) (low : Nat),
      (past.cycle f d).inEffect.mode.isSticky = true →
      IsLeast {k | (past.cycle f d).Live f.now k} low →
      (∀ k, past.arbiter.setpoint.slot = some k → ¬ (past.cycle f d).Live f.now k) →
      (past.cycle f d).arbiter.setpoint.slot = some low := by
  intro h
  have h1 := h twoHeard handover .open 1 rfl isLeast_handover lost_handover
  have h2 : (twoHeard.cycle handover .open).arbiter.setpoint.slot = some 2 := by decide +kernel
  rw [h2] at h1
  cases h1

end History

end StickArbiter
