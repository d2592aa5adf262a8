import StickArbiter.Proofs.Publication

/-!
# Keeping a slot

A slot that is live by its earlier and by its new reading is live between any two deliveries, so a
sticky mode keeps it.
-/

namespace StickArbiter

namespace Selector

theorem selected_taken_of_taking (s : Selector) (f : Feed) (m slot : Nat) (hm : m ≤ s.slotCount)
    (hsticky : s.mode.isSticky = true) (hs : (s.taking f m).selected = some slot)
    (hlive : ∀ i, m < i → i ≤ s.slotCount → (s.taking f i).isLive f.now slot = true)
    (hafter : (s.taken f).isLive f.now slot = true) : (s.taken f).selected = some slot := by
  have hkept : (s.taking f s.slotCount).selected = some slot :=
    selected_taking_of_live s f m s.slotCount slot hm (le_refl _) hsticky hs hlive
  rw [taken_eq] at hafter ⊢
  rw [selected_select]
  rw [isLive_select] at hafter
  rcases choice?_cases (s.taking f s.slotCount) f.now with ⟨k, hk, -, -, hchoice⟩ | ⟨hdrop, -⟩
  · rw [hchoice, ← hk, hkept]
  · have hdead := hdrop slot hkept (by rw [(taking_frame s f _).1]; exact hsticky)
    rw [hafter] at hdead
    cases hdead

theorem selected_taken_of_live (s : Selector) (f : Feed) (slot : Nat)
    (hsticky : s.mode.isSticky = true) (hs : s.selected = some slot)
    (hbefore : s.isLive f.now slot = true) (hafter : (s.taken f).isLive f.now slot = true) :
    (s.taken f).selected = some slot :=
  selected_taken_of_taking s f 0 slot (Nat.zero_le _) hsticky hs
    (fun i _ hi => isLive_taking_of_live s f i slot hi hbefore hafter) hafter

end Selector

namespace History

variable {past : History} {f : Feed} {d : Downlink} {slot : Nat}

/-- A live slot stays live with a new sample that may be selected, since the timeout is positive. -/
theorem live_of_renewed (hlive : past.LiveUnder (past.cycle f d).inEffect f.now slot)
    (hnew : ∀ x, f.sample slot = some x →
      x.valid = true ∧ (past.cycle f d).inEffect.mode.accepts x.source = true) :
    (past.cycle f d).Live f.now slot := by
  obtain ⟨hslot, r, hr, hvalid, haccepts, hage⟩ := hlive
  cases hx : f.sample slot with
  | none => exact ⟨hslot, r, by simp [last?, Feed.reading?, hx, hr], hvalid, haccepts, hage⟩
  | some x =>
    obtain ⟨hvalid, haccepts⟩ := hnew x hx
    refine ⟨hslot, ⟨x, f.now⟩, by simp [last?, Feed.reading?, hx], hvalid, haccepts, ?_⟩
    rw [Instant.since_self]
    exact Nat.zero_lt_of_lt hage

theorem published_of_slot (h : (past.cycle f d).arbiter.setpoint.slot = some slot) :
    ∃ r sp, (past.cycle f d).last? slot = some r ∧ (past.cycle f d).published = [sp] ∧
      sp.valid = true ∧ sp.slot = some slot ∧ sp.axes = r.sample.axes := by
  have hseen : (past.arbiter.observe f).setpoint.slot = some slot :=
    (past.arbiter.slot_cycle f d).symm.trans h
  have hsp : (past.cycle f d).arbiter.setpoint = _ := past.arbiter.setpoint_cycle f d
  rcases past.observe_cases f d with ⟨k, r, -, hread, hshown⟩ | ⟨-, hlost⟩
  · have hk : k = slot := by
      rw [hshown] at hseen
      exact Option.some.inj hseen
    have hvalid : (past.arbiter.observe f).setpoint.valid = true := by rw [hshown]; rfl
    have hv : (past.cycle f d).arbiter.setpoint.valid = true := (past.valid_cycle f d).trans hvalid
    refine ⟨r, _, hk ▸ hread, by rw [published_cycle, if_pos (Or.inl hv)], hv, h, ?_⟩
    rw [hsp, if_pos hvalid]
    exact congrArg Setpoint.axes hshown
  · rw [hlost] at hseen
    cases hseen

/-- A sticky mode keeps a slot, whatever the others receive, if its earlier reading is live and its
new sample may be selected. Its newest sample is published. -/
theorem slot_kept (past : History) (f : Feed) (d : Downlink) (slot : Nat)
    (hsticky : (past.cycle f d).inEffect.mode.isSticky = true)
    (hselected : past.arbiter.setpoint.slot = some slot)
    (hlive : past.LiveUnder (past.cycle f d).inEffect f.now slot)
    (hnew : ∀ x, f.sample slot = some x →
      x.valid = true ∧ (past.cycle f d).inEffect.mode.accepts x.source = true) :
    (past.cycle f d).arbiter.setpoint.slot = some slot ∧
    ∃ r sp, (past.cycle f d).last? slot = some r ∧ (past.cycle f d).published = [sp] ∧
      sp.valid = true ∧ sp.slot = some slot ∧ sp.axes = r.sample.axes := by
  have hmode := (Arbiter.configured_begin past.configured_arbiter f).mode
  have hbefore := (past.isLive_begin_iff f d slot).mpr hlive
  have hafter := (past.isLive_observe_iff f d slot).mpr (live_of_renewed hlive hnew)
  have hkept : (past.cycle f d).arbiter.setpoint.slot = some slot := by
    refine (past.arbiter.slot_cycle f d).trans ?_
    rw [Arbiter.selector_observe] at hafter ⊢
    exact Selector.selected_taken_of_live _ f slot (hmode ▸ hsticky)
      ((past.selected_begin f).trans hselected) hbefore hafter
  exact ⟨hkept, published_of_slot hkept⟩

def middleHeard : History :=
  .cycle (.create 3 {} defaultPollInterval)
    { now := .zero
      sample := fun k =>
        if k = 1 then some { axes := .zero, timestamp := .zero, source := .rc } else none }
    .open

/-- Slot 0 is heard for the first time, and slot 2 turns out unusable. -/
def allHeard : Feed :=
  { now := .ofMillis 100
    sample := fun k => some
      { axes := ⟨if k = 1 then 0.5 else 0, 0, 0, 0⟩, timestamp := .ofMillis 90, source := .rc
        valid := k ≠ 2 } }

theorem slot_kept_allHeard :
    (middleHeard.cycle allHeard .open).arbiter.setpoint.slot = some 1 ∧
    ∃ sp, (middleHeard.cycle allHeard .open).published = [sp] ∧ sp.axes = ⟨0.5, 0, 0, 0⟩ := by
  obtain ⟨hslot, r, sp, hread, hpublished, -, -, haxes⟩ :=
    slot_kept middleHeard allHeard .open 1 rfl (by decide +kernel)
      ⟨by decide, _, rfl, rfl, rfl, by decide⟩ (by rintro x ⟨⟩; exact ⟨rfl, rfl⟩)
  cases hread
  exact ⟨hslot, sp, hpublished, haxes⟩

end History

end StickArbiter
