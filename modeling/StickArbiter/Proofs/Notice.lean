import Mathlib.Data.Nat.SuccPred
import StickArbiter.Proofs.Ahead
import StickArbiter.Proofs.Hold
import StickArbiter.Proofs.Publication

/-!
# What the notice of a loss shows

It shows what was published last, unless samples below the highest live slot made the cycle select
that slot by its earlier reading.
-/

namespace StickArbiter

/-- Slot `top` was the highest one live before, and a cycle hears a slot below it. -/
structure Resurfaces (before : Nat → Prop) (f : Feed) (top : Nat) : Prop where
  highest : IsGreatest {k | before k} top
  early : f.Offers top

namespace Selector

theorem showing_select (s : Selector) (now : Instant) (k : Nat) (x : Sample) :
    (s.select now).setpoint.showing k x = s.setpoint.showing k x := by
  rcases select_cases s now with ⟨_, _, -, -, hs⟩ | ⟨-, hs⟩ <;> rw [hs] <;> rfl

theorem showing_taking (s : Selector) (f : Feed) (n k : Nat) (x : Sample) :
    (s.taking f n).setpoint.showing k x = s.setpoint.showing k x := by
  induction n with
  | zero => rfl
  | succ n ih =>
    cases hx : f.sample n with
    | none => rw [taking_succ_of_none s f n hx, ih]
    | some y =>
      rw [taking_succ_of_some s f n y hx, deliver]
      split
      · rw [showing_select]
        exact ih
      · exact ih

theorem exists_highest {s : Selector} {now : Instant} {slot : Nat}
    (h : s.isLive now slot = true) : ∃ top, IsGreatest {k | s.isLive now k = true} top := by
  have hbound : BddAbove {k | s.isLive now k = true} :=
    ⟨s.slotCount, fun k hk => le_of_lt (lt_slotCount_of_isLive hk)⟩
  exact hbound.exists_isGreatest_of_nonempty ⟨slot, h⟩

theorem dead_above_highest {s : Selector} {now : Instant} {top : Nat}
    (h : IsGreatest {k | s.isLive now k = true} top) (k : Nat) (hk : top < k) :
    s.isLive now k = false := by
  by_contra hlive
  have : k ≤ top := h.2 (by simpa using hlive)
  omega

section Lost

variable (s : Selector) (f : Feed) (hlost : ∀ k, (s.taken f).isLive f.now k = false)

include hlost

theorem setpoint_taken_of_lost :
    (s.taken f).setpoint = (s.taking f s.slotCount).setpoint.withoutInput := by
  rw [taken_eq] at hlost ⊢
  rcases select_cases (s.taking f s.slotCount) f.now with ⟨k, -, hk, -⟩ | ⟨-, hs⟩
  · have hlive := isLive_of_choice? hk
    rw [← isLive_select _ f.now, hlost k] at hlive
    cases hlive
  · exact hs

theorem setpoint_taken_of_dead_above (m : Nat) (hm : m ≤ s.slotCount)
    (habove : ∀ k, m < k → s.isLive f.now k = false) :
    (s.taken f).setpoint = (s.taking f m).setpoint.withoutInput := by
  rw [setpoint_taken_of_lost s f hlost]
  refine withoutInput_taking s f m s.slotCount hm (le_refl _) ?_
  intro i hi hin _ k
  rw [isLive_taking s f i k hin]
  split
  · exact hlost k
  · exact habove k (by omega)

variable {s f} {top : Nat} {r : Reading}

theorem setpoint_taking_highest (h : Resurfaces (fun k => s.isLive f.now k = true) f top)
    (hr : s.reading? top = some r) :
    (s.taking f top).setpoint = s.setpoint.showing top r.sample := by
  have hcount : top ≤ s.slotCount := le_of_lt (lt_slotCount_of_isLive h.highest.1)
  have hlive : ∀ k, (s.taking f top).isLive f.now k = true ↔ k = top := by
    intro k
    rw [isLive_taking s f top k hcount]
    -- The slots below are heard and lost, and the ones above were not live before.
    split
    · rw [hlost k]
      constructor
      · intro hk
        cases hk
      · omega
    · constructor
      · intro hk
        have : k ≤ top := h.highest.2 hk
        omega
      · rintro rfl
        exact h.highest.1
  cases settled_taking s f top hcount h.early with
  | showing k r' live reading setpoint =>
    obtain rfl := (hlive k).mp live
    rw [reading?_taking s f k k hcount, if_neg (by omega), hr] at reading
    cases reading
    rw [setpoint, showing_taking]
  | lost dead _ =>
    have := (hlive top).mpr rfl
    rw [dead top] at this
    cases this

theorem setpoint_taken_of_resurfaces (h : Resurfaces (fun k => s.isLive f.now k = true) f top)
    (hr : s.reading? top = some r) :
    (s.taken f).setpoint = (s.setpoint.showing top r.sample).withoutInput := by
  have hcount : top ≤ s.slotCount := le_of_lt (lt_slotCount_of_isLive h.highest.1)
  rw [← setpoint_taking_highest hlost h hr]
  exact setpoint_taken_of_dead_above s f hlost top hcount (dead_above_highest h.highest)

theorem setpoint_taken_of_not_resurfaces
    (h : ∀ top, ¬ Resurfaces (fun k => s.isLive f.now k = true) f top) :
    (s.taken f).setpoint = s.setpoint.withoutInput := by
  by_cases hsome : ∃ k, s.isLive f.now k = true
  · obtain ⟨k, hk⟩ := hsome
    obtain ⟨top, htop⟩ := exists_highest hk
    have hquiet : ¬ f.Offers top := fun hearly => h top ⟨htop, hearly⟩
    have hcount : top ≤ s.slotCount := le_of_lt (lt_slotCount_of_isLive htop.1)
    rw [setpoint_taken_of_dead_above s f hlost top hcount (dead_above_highest htop),
      taking_of_quiet s f top hquiet]
  · refine setpoint_taken_of_dead_above s f hlost 0 (Nat.zero_le _) ?_
    intro k _
    by_contra hlive
    exact hsome ⟨k, by simpa using hlive⟩

end Lost

end Selector

/-! ## The first cycle of an outage -/

namespace History

variable (past : History) (f : Feed) (d : Downlink)

theorem setpoint_of_lost (hlost : (past.cycle f d).arbiter.setpoint.valid = false) :
    (past.cycle f d).arbiter.setpoint = ((past.arbiter.begin f).selector.taken f).setpoint ∧
      ∀ k, ((past.arbiter.begin f).selector.taken f).isLive f.now k = false := by
  have hsp : (past.cycle f d).arbiter.setpoint = _ := past.arbiter.setpoint_cycle f d
  rw [valid_cycle] at hlost
  rw [if_neg (by simp [hlost])] at hsp
  refine ⟨hsp, fun k => ?_⟩
  by_contra hlive
  have hsettled := (past.arbiter.begin f).selector.settled_taken f
  have hvalid := (Selector.valid_iff_of_settled hsettled).mpr ⟨k, by simpa using hlive⟩
  cases hlost.symm.trans hvalid

variable {past f d}

theorem setpoint_of_resurfaces {top : Nat} {r : Reading}
    (hlost : (past.cycle f d).arbiter.setpoint.valid = false)
    (h : Resurfaces (past.LiveUnder (past.cycle f d).inEffect f.now) f top)
    (hr : past.last? top = some r) :
    (past.cycle f d).arbiter.setpoint =
      (past.arbiter.setpoint.showing top r.sample).withoutInput := by
  obtain ⟨hsp, hdead⟩ := past.setpoint_of_lost f d hlost
  have hslot : top < past.count := h.highest.1.1
  rw [← past.live_begin f d] at h
  rw [← past.reading?_arbiter top hslot, ← past.reading?_begin f] at hr
  rw [hsp, Selector.setpoint_taken_of_resurfaces hdead h hr, (Arbiter.begin_spec _ f).1]

theorem setpoint_of_not_resurfaces
    (hlost : (past.cycle f d).arbiter.setpoint.valid = false)
    (h : ∀ top, ¬ Resurfaces (past.LiveUnder (past.cycle f d).inEffect f.now) f top) :
    (past.cycle f d).arbiter.setpoint = past.arbiter.setpoint.withoutInput := by
  obtain ⟨hsp, hdead⟩ := past.setpoint_of_lost f d hlost
  rw [← past.live_begin f d] at h
  rw [hsp, Selector.setpoint_taken_of_not_resurfaces hdead h, (Arbiter.begin_spec _ f).1]

/-- A loss after a valid cycle is published with the values published last, unless the reading of
the highest slot that was live comes up again. -/
theorem notice_eq_withoutInput_iff {c : History} (hlast : past.cycles.getLast? = some c)
    (hvalid : c.arbiter.setpoint.valid = true)
    (hlost : (past.cycle f d).arbiter.setpoint.valid = false) :
    ∃ sp notice, c.published = [sp] ∧ (past.cycle f d).published = [notice] ∧
      (∀ top r, Resurfaces (past.LiveUnder (past.cycle f d).inEffect f.now) f top →
        past.last? top = some r → notice = (sp.showing top r.sample).withoutInput) ∧
      (notice = sp.withoutInput ↔
        ∀ top r, Resurfaces (past.LiveUnder (past.cycle f d).inEffect f.now) f top →
          past.last? top = some r →
          sp.axes = r.sample.axes ∧ sp.timestamp = r.sample.timestamp ∧
            sp.source = r.sample.source) := by
  obtain ⟨hsp, -, -⟩ := of_getLast? true hlast
  have htracking : past.arbiter.phase = .tracking := by
    rw [phase_eq_tracking_iff, hlast]
    rintro _ ⟨⟩
    exact hvalid
  obtain ⟨before, g, e, rfl⟩ := exists_cycle_of_mem past c (List.mem_of_getLast? hlast)
  refine ⟨past.arbiter.setpoint, (past.cycle f d).arbiter.setpoint, ?_, ?_,
    fun top r => setpoint_of_resurfaces hlost, ?_⟩
  · rw [published_cycle, if_pos (Or.inl hvalid), hsp]
  · rw [published_cycle, if_pos (Or.inr htracking)]
  · constructor
    · intro heq top r hres hr
      rw [setpoint_of_resurfaces hlost hres hr] at heq
      exact (Setpoint.withoutInput_showing_iff _ top r.sample).mp heq
    · intro hsame
      by_cases h : ∃ top, Resurfaces (past.LiveUnder (past.cycle f d).inEffect f.now) f top
      · obtain ⟨top, htop⟩ := h
        obtain ⟨-, r, hr, -⟩ := htop.highest.1
        rw [setpoint_of_resurfaces hlost htop hr]
        exact (Setpoint.withoutInput_showing_iff _ top r.sample).mpr (hsame top r htop hr)
      · exact setpoint_of_not_resurfaces hlost (not_exists.mp h)

def bothHeard : History :=
  .cycle (.create 2 {} defaultPollInterval)
    { now := .zero
      sample := fun slot =>
        some { axes := ⟨if slot = 0 then 0 else 1, 0, 0, 0⟩, timestamp := .zero, source := .rc } }
    .open

def bothUnusable : Feed :=
  { now := .ofMillis 100
    sample := fun _ =>
      some { axes := .zero, timestamp := .ofMillis 100, source := .rc, valid := false } }

theorem resurfaces_bothUnusable :
    Resurfaces (bothHeard.LiveUnder (bothHeard.cycle bothUnusable .open).inEffect bothUnusable.now)
      bothUnusable 1 := by
  refine ⟨⟨⟨by decide, _, rfl, rfl, rfl, by decide⟩, ?_⟩, 0, by decide, rfl⟩
  rintro k ⟨hk, -⟩
  exact Nat.le_of_lt_succ hk

theorem notice_bothUnusable :
    ∃ sp notice, bothHeard.published = [sp] ∧
      (bothHeard.cycle bothUnusable .open).published = [notice] ∧ notice ≠ sp.withoutInput := by
  obtain ⟨sp, notice, hsp, hnotice, -, hiff⟩ :=
    notice_eq_withoutInput_iff (show bothHeard.cycles.getLast? = some bothHeard from rfl)
      (by decide +kernel)
      (show (bothHeard.cycle bothUnusable .open).arbiter.setpoint.valid = false from rfl)
  refine ⟨sp, notice, hsp, hnotice, fun heq => ?_⟩
  have haxes := (hiff.mp heq 1 _ resurfaces_bothUnusable rfl).1
  have hshown : [⟨0, 0, 0, 0⟩] = [sp.axes] := congrArg (List.map Setpoint.axes) hsp
  rw [← (List.singleton_inj.mp hshown)] at haxes
  revert haxes
  decide +kernel

/-- The notice can show a slot that was never published. -/
theorem notice_ne_bothUnusable :
    ¬ ∀ (past c : History) (f : Feed) (d : Downlink), past.cycles.getLast? = some c →
      c.arbiter.setpoint.valid = true → (past.cycle f d).arbiter.setpoint.valid = false →
      ∀ sp notice, c.published = [sp] → (past.cycle f d).published = [notice] →
        notice = sp.withoutInput := by
  intro h
  have heq := h bothHeard bothHeard bothUnusable .open rfl (by decide +kernel) rfl _ _ rfl rfl
  have haxes := congrArg (fun sp => sp.axes.x) heq
  revert haxes
  decide +kernel

end History

end StickArbiter
