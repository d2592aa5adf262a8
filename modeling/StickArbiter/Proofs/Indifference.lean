import StickArbiter.Proofs.Interference
import StickArbiter.Proofs.Requests

/-!
# What failures and switches change

Histories that differ only in how sends end and in the switches send the same. A request that failed
is not repeated before the gesture is released.
-/

namespace StickArbiter

namespace Arbiter

theorem publishValid_indifferent (a : Arbiter) {f g : Feed} (d d' : Downlink)
    (hnow : g.now = f.now) :
    (a.publishValid g d').arbiter = (a.publishValid f d).arbiter ∧
      (a.publishValid g d').sends = (a.publishValid f d).sends := by
  unfold publishValid
  rw [hnow]
  exact ⟨rfl, rfl⟩

theorem handleInvalid_indifferent (a : Arbiter) (d d' : Downlink) :
    (a.handleInvalid d').arbiter = (a.handleInvalid d).arbiter ∧
      (a.handleInvalid d').sends = (a.handleInvalid d).sends := by
  unfold handleInvalid
  cases a.phase <;> exact ⟨rfl, rfl⟩

theorem cycle_congr {a b : Arbiter} {f g : Feed} (d d' : Downlink) (hnow : g.now = f.now)
    (h : b.observe g = a.observe f) :
    (b.cycle g d').arbiter = (a.cycle f d).arbiter ∧
      (b.cycle g d').sends = (a.cycle f d).sends := by
  unfold cycle
  rw [h]
  by_cases hvalid : (a.observe f).setpoint.valid = true
  · simp only [if_pos hvalid]
    exact publishValid_indifferent _ d d' hnow
  · simp only [if_neg hvalid]
    exact handleInvalid_indifferent _ d d'

theorem observe_congr (a : Arbiter) {f g : Feed} (hnow : g.now = f.now)
    (hparameters : g.parameters = f.parameters) (hsample : g.sample = f.sample) :
    a.observe g = a.observe f := by
  unfold observe begin
  rw [hnow, hparameters, hsample]

end Arbiter

namespace History

/-- Two histories that differ only in how sends end and in what the switches show. -/
inductive SameInputs : History → History → Prop
  | create (count : Nat) (p : Parameters) (pollInterval : Span) :
    SameInputs (.create count p pollInterval) (.create count p pollInterval)
  | cycle {past past' : History} {f g : Feed} (d d' : Downlink) (same : SameInputs past past')
      (now : g.now = f.now) (parameters : g.parameters = f.parameters)
      (sample : ∀ slot, g.sample slot = f.sample slot) :
    SameInputs (past.cycle f d) (past'.cycle g d')
  | apply {past past' : History} (p : Parameters) (same : SameInputs past past') :
    SameInputs (past.apply p) (past'.apply p)

/-- Two histories whose cycles send the same and leave the same. -/
structure SameCycles (past past' : History) : Prop where
  sends : past'.sends = past.sends
  arbiters : past'.cycles.map History.arbiter = past.cycles.map History.arbiter

structure SameEffects (past past' : History) : Prop extends SameCycles past past' where
  arbiter : past'.arbiter = past.arbiter

variable {past past' : History}

theorem SameCycles.cycle (h : SameCycles past past') {f g : Feed} (d d' : Downlink)
    (hnow : g.now = f.now) (hobserve : past'.arbiter.observe g = past.arbiter.observe f) :
    SameEffects (past.cycle f d) (past'.cycle g d') := by
  obtain ⟨harbiter, hsends⟩ := Arbiter.cycle_congr d d' hnow hobserve
  refine ⟨⟨?_, ?_⟩, harbiter⟩
  · unfold History.sends outcome
    rw [h.sends, hsends]
  · simp only [cycles, List.map_append, List.map_cons, List.map_nil, h.arbiters]
    exact congrArg (fun a => _ ++ [a]) harbiter

theorem SameEffects.apply (h : SameEffects past past') (p : Parameters) :
    SameEffects (past.apply p) (past'.apply p) :=
  ⟨⟨h.sends, h.arbiters⟩, congrArg (·.applyParameters p) h.arbiter⟩

theorem SameInputs.sameEffects (h : SameInputs past past') : SameEffects past past' := by
  induction h with
  | create => exact ⟨⟨rfl, rfl⟩, rfl⟩
  | @cycle past past' f g d d' _ hnow hparameters hsample ih =>
    refine ih.toSameCycles.cycle d d' hnow ?_
    rw [ih.arbiter]
    exact past.arbiter.observe_congr hnow hparameters (funext hsample)
  | apply p _ ih => exact ih.apply p

/-! ## Requests are not repeated -/

theorem gestureAt_of_request {run c : History} {k : Nat} (hk : run.validCycles[k]? = some c)
    {x : Command} (hx : x ∈ c.commands) :
    run.gestureAt x.isArm (k + 1) = true ∧ run.gestureAt x.isArm k = false := by
  have hmem := List.mem_of_getElem? hk
  obtain ⟨hcycle, hvalid⟩ := List.mem_filter.mp hmem
  obtain ⟨past, f, d, rfl⟩ := exists_cycle_of_mem run c hcycle
  obtain ⟨rfl, hprefix⟩ := validCycles_of_getElem? hk
  obtain ⟨-, hgesture⟩ := past.isArm_of_mem_commands f d hx
  rw [past.commands_of_valid f d hvalid, List.mem_map] at hx
  obtain ⟨arm, harm, rfl⟩ := hx
  rw [Command.isArm_request] at hgesture ⊢
  rw [Arbiter.mem_requests, past.requested_eq f d arm hvalid, Bool.and_eq_true,
    Bool.not_eq_true', ← gestureAt_of_prefix hprefix] at harm
  refine ⟨?_, harm.2⟩
  rw [gestureAt, hk, Option.any_some]
  exact hgesture

/-- Between two requests of a kind the gesture is released. -/
theorem released_of_requests {run c c' : History} {j k : Nat} (hjk : j < k)
    (hj : run.validCycles[j]? = some c) (hk : run.validCycles[k]? = some c') {x y : Command}
    (hx : x ∈ c.commands) (hy : y ∈ c'.commands) (hkind : x.isArm = y.isArm) :
    ∃ (i : Nat) (between : History), j < i ∧ i < k ∧ run.validCycles[i]? = some between ∧
      between.arbiter.setpoint.gesture y.isArm = false := by
  have hconfirmed := (gestureAt_of_request hj hx).1
  have hreleased := (gestureAt_of_request hk hy).2
  obtain ⟨i, rfl⟩ : ∃ i, k = i + 1 := ⟨k - 1, by omega⟩
  have hne : i ≠ j := by
    rintro rfl
    rw [hkind, hreleased] at hconfirmed
    cases hconfirmed
  obtain ⟨hlength, -⟩ := List.getElem?_eq_some_iff.mp hk
  obtain ⟨between, hi⟩ : ∃ between, run.validCycles[i]? = some between :=
    ⟨_, List.getElem?_eq_getElem (by omega)⟩
  rw [gestureAt, hi, Option.any_some] at hreleased
  exact ⟨i, between, by omega, by omega, hi, hreleased⟩

/-- Histories with the same inputs send the same in every cycle and leave the same arbiters, and a
failed request is not made again. -/
theorem sends_eq_of_sameInputs (h : SameInputs past past') :
    past'.sends = past.sends ∧
    past'.cycles.map History.arbiter = past.cycles.map History.arbiter ∧
    past'.arbiter = past.arbiter ∧
    ∀ (j k : Nat) (c c' : History), j < k → past.validCycles[j]? = some c →
      past.validCycles[k]? = some c' →
      ∀ x ∈ c.commands, ∀ y ∈ c'.commands, x.isArm = y.isArm →
        ∃ (i : Nat) (between : History), j < i ∧ i < k ∧ past.validCycles[i]? = some between ∧
          between.arbiter.setpoint.gesture y.isArm = false :=
  ⟨h.sameEffects.sends, h.sameEffects.arbiters, h.sameEffects.arbiter,
    fun _ _ _ _ hjk hj hk _ hx _ hy hkind => released_of_requests hjk hj hk hx hy hkind⟩

def heldTwice (d : Downlink) (s : Option Switches) : History :=
  .cycle (.cycle (.create 1 { armHysteresis := .zero } defaultPollInterval)
    (showing true .zero none) d) { showing true (.ofMillis 100) none with switches := s } .open

def refusing : Downlink := { command := fun _ => some .consumerGone }

theorem sameInputs_heldTwice :
    SameInputs (heldTwice .open none) (heldTwice refusing (some { kill := .on })) :=
  .cycle _ _ (.cycle _ _ (.create _ _ _) rfl rfl fun _ => rfl) rfl rfl fun _ => rfl

/-- The request that is refused in the first cycle is not made again in the second. -/
theorem sends_eq_heldTwice :
    (heldTwice refusing (some { kill := .on })).sends = (heldTwice .open none).sends ∧
      (heldTwice refusing (some { kill := .on })).sends.map (·.1.filterMap Call.command?) =
        [[.request true .zero], []] := by
  have hsends := (sends_eq_of_sameInputs sameInputs_heldTwice).1
  refine ⟨hsends, ?_⟩
  rw [hsends]
  decide +kernel

end History

end StickArbiter
