import StickArbiter.Proofs.Hold
import StickArbiter.Proofs.Publication

/-!
# One request for a gesture

A valid cycle sends a request exactly if it confirms a gesture that the valid cycle before did not.
-/

namespace StickArbiter

def Call.command? : Call → Option Command
  | command c => some c
  | publish _ => none

/-! ## One cycle -/

namespace Arbiter

theorem calls_cycle_of_valid (a : Arbiter) (f : Feed) (d : Downlink)
    (h : (a.observe f).setpoint.valid = true) :
    (a.cycle f d).calls =
      ((requests (a.observe f).gestureReport).map fun arm => .command (.request arm f.now)) ++
        [.publish (a.cycle f d).arbiter.setpoint] := by
  rw [cycle_of_valid a f d h]; rfl

theorem filter_requests (report : GestureReport) (now : Instant) (arm : Bool) :
    (((requests report).map fun arm => Command.request arm now).filter fun c => c.isArm = arm) =
      if report.requested arm then [.request arm now] else [] := by
  cases arm <;> cases h : report.armRequested <;> cases h' : report.disarmRequested <;>
    simp [requests, GestureReport.requested, h, h', Command.isArm_request]

theorem no_commands_of_lost (a : Arbiter) (f : Feed) (d : Downlink)
    (h : (a.observe f).setpoint.valid = false) :
    (a.cycle f d).calls.filterMap Call.command? = [] := by
  rw [cycle_of_invalid a f d h, handleInvalid_calls]
  split <;> rfl

theorem commands_cycle_of_valid (a : Arbiter) (f : Feed) (d : Downlink)
    (h : (a.observe f).setpoint.valid = true) :
    (a.cycle f d).calls.filterMap Call.command? =
      (requests (a.observe f).gestureReport).map fun arm => .request arm f.now := by
  rw [calls_cycle_of_valid a f d h, List.filterMap_append, List.filterMap_map]
  have hcommand : (Call.command? ∘ fun arm => Call.command (.request arm f.now)) =
      some ∘ fun arm => Command.request arm f.now := rfl
  rw [hcommand, List.filterMap_eq_map]
  simp [Call.command?]

theorem release_observe (a : Arbiter) (f : Feed) (arm : Bool) :
    ((a.observe f).gestures.of arm).delayFromTrue = (a.gestures.of arm).delayFromTrue := by
  unfold observe begin
  cases f.parameters <;> cases arm <;> rfl

end Arbiter

/-! ## What the valid cycles show -/

namespace History

def commands : History → List Command
  | cycle past f d => (past.outcome f d).calls.filterMap Call.command?
  | _ => []

def validCycles (run : History) : List History := run.cycles.filter (·.arbiter.setpoint.valid)

/-- Whether the `k`-th valid cycle, counted from 1, shows a gesture as confirmed. -/
def gestureAt (run : History) (arm : Bool) : Nat → Bool
  | 0 => false
  | k + 1 => run.validCycles[k]?.any (·.arbiter.setpoint.gesture arm)

/-- The debouncers hold what the last valid cycle showed. -/
theorem confirmed_eq_gestureAt (past : History) (arm : Bool) :
    (past.arbiter.gestures.of arm).confirmed = past.gestureAt arm past.validCycles.length := by
  induction past with
  | create count p pollInterval => cases arm <;> rfl
  | cycle past f d ih =>
    cases hv : (past.cycle f d).arbiter.setpoint.valid with
    | true =>
      rw [← gesture_eq_confirmed _ arm hv]
      simp [validCycles, cycles, hv, gestureAt]
    | false =>
      have hg : (past.cycle f d).arbiter.gestures.of arm = _ := past.arbiter.gesture_cycle f d arm
      have hsame : (past.cycle f d).validCycles = past.validCycles := by
        simp [validCycles, cycles, hv]
      rw [hg, ← past.valid_cycle f d, hv, if_neg (by decide),
        (past.arbiter.gesture_observe f arm).1, ih, hsame]
      cases past.validCycles.length <;> simp [gestureAt, hsame]
  | apply past p ih => cases arm <;> exact ih

theorem release_arbiter (past : History) (arm : Bool) :
    (past.arbiter.gestures.of arm).delayFromTrue = .zero := by
  induction past with
  | create count p pollInterval => cases arm <;> rfl
  | cycle past f d ih =>
    have hg : (past.cycle f d).arbiter.gestures.of arm = _ := past.arbiter.gesture_cycle f d arm
    rw [hg]
    split
    · rw [Debounce.delayFromTrue_feed, past.arbiter.release_observe f arm, ih]
    · rw [past.arbiter.release_observe f arm, ih]
  | apply past p ih => cases arm <;> exact ih

theorem validCycles_of_getElem? {run past : History} {f : Feed} {d : Downlink} {k : Nat}
    (h : run.validCycles[k]? = some (past.cycle f d)) :
    k = past.validCycles.length ∧ past.validCycles <+: run.validCycles := by
  induction run with
  | create count p pollInterval => simp [validCycles, cycles] at h
  | cycle run g e ih =>
    cases hv : (run.cycle g e).arbiter.setpoint.valid with
    | false =>
      have hsame : (run.cycle g e).validCycles = run.validCycles := by
        simp [validCycles, cycles, hv]
      rw [hsame] at h ⊢
      exact ih h
    | true =>
      have hlonger : (run.cycle g e).validCycles = run.validCycles ++ [run.cycle g e] := by
        simp [validCycles, cycles, hv]
      rw [hlonger] at h ⊢
      rcases Nat.lt_trichotomy k run.validCycles.length with hk | hk | hk
      · rw [List.getElem?_append_left hk] at h
        obtain ⟨hlength, hprefix⟩ := ih h
        exact ⟨hlength, hprefix.trans (List.prefix_append _ _)⟩
      · rw [hk, List.getElem?_concat_length] at h
        cases h
        exact ⟨hk, List.prefix_append _ _⟩
      · rw [List.getElem?_eq_none (by simp; omega)] at h
        cases h
  | apply run p ih => exact ih h

theorem gestureAt_of_prefix {run past : History} (h : past.validCycles <+: run.validCycles)
    (arm : Bool) :
    run.gestureAt arm past.validCycles.length = past.gestureAt arm past.validCycles.length := by
  cases hk : past.validCycles.length with
  | zero => rfl
  | succ k =>
    obtain ⟨rest, hrun⟩ := h
    rw [gestureAt, gestureAt, ← hrun, List.getElem?_append_left (by omega)]

variable (past : History) (f : Feed) (d : Downlink) (arm : Bool)

theorem requested_eq (h : (past.cycle f d).arbiter.setpoint.valid = true) :
    (past.arbiter.observe f).gestureReport.requested arm =
      ((past.cycle f d).arbiter.setpoint.gesture arm &&
        !past.gestureAt arm past.validCycles.length) := by
  have hg : (past.cycle f d).arbiter.gestures.of arm = _ := past.arbiter.gesture_cycle f d arm
  rw [gesture_eq_confirmed _ arm h, hg, ← past.valid_cycle f d, h, if_pos rfl,
    ← past.confirmed_eq_gestureAt arm, ← (past.arbiter.gesture_observe f arm).1]
  exact GestureDetector.requested_report _ arm _ _

theorem shows_of_gesture (h : (past.cycle f d).arbiter.setpoint.valid = true)
    (hgesture : (past.cycle f d).arbiter.setpoint.gesture arm = true) :
    Geometry.shows arm (past.arbiter.observe f).setpoint.axes = true := by
  have hg : (past.cycle f d).arbiter.gestures.of arm = _ := past.arbiter.gesture_cycle f d arm
  rw [gesture_eq_confirmed _ arm h, hg, ← past.valid_cycle f d, h, if_pos rfl] at hgesture
  by_contra hshows
  rw [Bool.not_eq_true] at hshows
  rw [hshows, Debounce.feed_false_of_no_delay] at hgesture
  · cases hgesture
  · rw [past.arbiter.release_observe f arm, past.release_arbiter arm]

theorem gestures_exclude (h : (past.cycle f d).arbiter.setpoint.valid = true) :
    ¬ ((past.cycle f d).arbiter.setpoint.gesture true = true ∧
      (past.cycle f d).arbiter.setpoint.gesture false = true) := by
  rintro ⟨harm, hdisarm⟩
  have hleft := Geometry.disarm_of_arm _ (past.shows_of_gesture f d true h harm)
  cases hleft.symm.trans (past.shows_of_gesture f d false h hdisarm)

/-! ## Requests -/

theorem commands_of_lost (h : (past.cycle f d).arbiter.setpoint.valid = false) :
    (past.cycle f d).commands = [] :=
  past.arbiter.no_commands_of_lost f d ((past.valid_cycle f d).symm.trans h)

theorem commands_of_valid (h : (past.cycle f d).arbiter.setpoint.valid = true) :
    (past.cycle f d).commands =
      (Arbiter.requests (past.arbiter.observe f).gestureReport).map fun arm => .request arm f.now :=
  past.arbiter.commands_cycle_of_valid f d ((past.valid_cycle f d).symm.trans h)

theorem isArm_of_mem_commands {c : Command} (hc : c ∈ (past.cycle f d).commands) :
    (past.cycle f d).arbiter.setpoint.valid = true ∧
      (past.cycle f d).arbiter.setpoint.gesture c.isArm = true := by
  cases h : (past.cycle f d).arbiter.setpoint.valid with
  | false =>
    rw [commands_of_lost _ _ _ h] at hc
    cases hc
  | true =>
    rw [commands_of_valid _ _ _ h, List.mem_map] at hc
    obtain ⟨arm, hmem, rfl⟩ := hc
    rw [Arbiter.mem_requests, requested_eq _ _ d _ h, Bool.and_eq_true] at hmem
    rw [Command.isArm_request]
    exact ⟨rfl, hmem.1⟩

/-- The `k`-th valid cycle requests what its gesture asks for exactly if the one before did not show
that gesture as confirmed. A lost cycle requests nothing. -/
theorem requests_on_rising_edge (run : History) :
    (∀ k past f d, run.validCycles[k]? = some (cycle past f d) →
      (past.outcome f d).calls =
        (past.cycle f d).commands.map .command ++ [.publish (past.cycle f d).arbiter.setpoint] ∧
      ∀ arm, (past.cycle f d).commands.filter (fun c => c.isArm = arm) =
        if run.gestureAt arm (k + 1) = true ∧ run.gestureAt arm k = false then
          [.request arm f.now]
        else []) ∧
    (∀ c ∈ run.cycles, c.arbiter.setpoint.valid = false → c.commands = []) ∧
    (∀ c ∈ run.cycles, ∀ x ∈ c.commands, ∀ y ∈ c.commands, x.isArm = y.isArm) := by
  refine ⟨fun k past f d hk => ?_, fun c hc hlost => ?_, fun c hc x hx y hy => ?_⟩
  · have hvalid := (List.mem_filter.mp (List.mem_of_getElem? hk)).2
    obtain ⟨hlength, hprefix⟩ := validCycles_of_getElem? hk
    have hcommands := past.commands_of_valid f d hvalid
    constructor
    · rw [hcommands, List.map_map]
      exact past.arbiter.calls_cycle_of_valid f d ((past.valid_cycle f d).symm.trans hvalid)
    · intro arm
      have hnow : run.gestureAt arm (k + 1) = (past.cycle f d).arbiter.setpoint.gesture arm := by
        rw [gestureAt, hk, Option.any_some]
      rw [hcommands, Arbiter.filter_requests, past.requested_eq f d arm hvalid, hnow, hlength,
        gestureAt_of_prefix hprefix]
      simp
  · obtain ⟨past, f, d, rfl⟩ := exists_cycle_of_mem run c hc
    exact past.commands_of_lost f d hlost
  · obtain ⟨past, f, d, rfl⟩ := exists_cycle_of_mem run c hc
    obtain ⟨hvalid, hxg⟩ := past.isArm_of_mem_commands f d hx
    obtain ⟨-, hyg⟩ := past.isArm_of_mem_commands f d hy
    have hexclude := past.gestures_exclude f d hvalid
    cases hxa : x.isArm <;> cases hya : y.isArm <;> rw [hxa] at hxg <;> rw [hya] at hyg
    · exact absurd ⟨hyg, hxg⟩ hexclude
    · exact absurd ⟨hxg, hyg⟩ hexclude

def armedUnheard : History :=
  .cycle (.create 1 { armHysteresis := .zero } defaultPollInterval) (showing true .zero none)
    { command := fun _ => some .consumerGone }

def lostWhileArmed : History := armedUnheard.cycle { now := .ofMillis 600 } .open

def heldAcrossLoss : History := lostWhileArmed.cycle (showing true (.ofMillis 700) none) .open

theorem validCycles_heldAcrossLoss :
    heldAcrossLoss.validCycles = [armedUnheard, heldAcrossLoss] := by
  have hfirst : armedUnheard.arbiter.setpoint.valid = true := by decide +kernel
  have hlost : lostWhileArmed.arbiter.setpoint.valid = false := by decide +kernel
  have hlast : heldAcrossLoss.arbiter.setpoint.valid = true := by decide +kernel
  change [armedUnheard, lostWhileArmed, heldAcrossLoss].filter _ = _
  simp [hfirst, hlost, hlast]

theorem requests_heldAcrossLoss :
    (armedUnheard.commands.filter fun c => c.isArm = true) = [.request true .zero] ∧
      lostWhileArmed.commands = [] ∧
      (heldAcrossLoss.commands.filter fun c => c.isArm = true) = [] := by
  obtain ⟨hvalid, hlost, -⟩ := requests_on_rising_edge heldAcrossLoss
  have hfirst : armedUnheard.arbiter.setpoint.gesture true = true := by decide +kernel
  have hgesture : heldAcrossLoss.gestureAt true 1 = true := by
    simp [gestureAt, validCycles_heldAcrossLoss, hfirst]
  refine ⟨?_, ?_, ?_⟩
  · have hrequest := (hvalid 0 _ _ _ (by rw [validCycles_heldAcrossLoss]; rfl)).2 true
    rw [if_pos ⟨hgesture, rfl⟩] at hrequest
    exact hrequest
  · have hmem : lostWhileArmed ∈ [armedUnheard, lostWhileArmed, heldAcrossLoss] := by simp
    exact hlost _ hmem (by decide +kernel)
  · have hrequest := (hvalid 1 _ _ _ (by rw [validCycles_heldAcrossLoss]; rfl)).2 true
    rw [hgesture, if_neg (by simp)] at hrequest
    exact hrequest

end History

end StickArbiter
