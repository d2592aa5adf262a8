import StickArbiter.Proofs.Selection

/-!
# Histories of an arbiter

A host creates an arbiter, then runs cycles and sets parameters in any order. These moves alone tell
the parameters in effect and the readings of the slots.
-/

namespace StickArbiter

inductive History
  | create (count : Nat) (p : Parameters) (pollInterval : Span)
  | cycle (past : History) (f : Feed) (d : Downlink)
  | apply (past : History) (p : Parameters)

namespace History

def arbiter : History → Arbiter
  | create count p pollInterval => .create count p pollInterval
  | cycle past f d => (past.arbiter.cycle f d).arbiter
  | apply past p => past.arbiter.applyParameters p

def outcome (past : History) (f : Feed) (d : Downlink) : Outcome := past.arbiter.cycle f d

/-- The histories that end with a cycle of this one, in order. -/
def cycles : History → List History
  | create _ _ _ => []
  | cycle past f d => past.cycles ++ [cycle past f d]
  | apply past _ => past.cycles

/-! ## What the moves tell -/

def count : History → Nat
  | create count _ _ => count
  | cycle past _ _ => past.count
  | apply past _ => past.count

def inEffect : History → Parameters
  | create _ p _ => p
  | cycle past f _ => f.parameters.getD past.inEffect
  | apply _ p => p

def last? (slot : Nat) : History → Option Reading
  | create _ _ _ => none
  | cycle past f _ => (f.reading? slot).or (past.last? slot)
  | apply past _ => past.last? slot

/-- The last sample of the slot that the setpoint names. -/
def shown? (past : History) : Option Sample :=
  past.arbiter.setpoint.slot.bind fun slot => (past.last? slot).map (·.sample)

/-- Whether a slot is live at `now` under some parameters, by what it received last. -/
def LiveUnder (past : History) (p : Parameters) (now : Instant) (slot : Nat) : Prop :=
  slot < past.count ∧ ∃ r, past.last? slot = some r ∧ r.sample.valid = true ∧
    p.mode.accepts r.sample.source = true ∧ now.since r.received < p.lossTimeout

def Live (past : History) (now : Instant) (slot : Nat) : Prop :=
  past.LiveUnder past.inEffect now slot

end History

/-! ## What a cycle leaves -/

namespace Arbiter

theorem cycle_of_valid (a : Arbiter) (f : Feed) (d : Downlink)
    (h : (a.observe f).setpoint.valid = true) :
    a.cycle f d =
      { (a.observe f).publishValid f d with
        log := parametersLog f ++ ((a.observe f).publishValid f d).log } := by
  simp [cycle, h]

theorem cycle_of_invalid (a : Arbiter) (f : Feed) (d : Downlink)
    (h : (a.observe f).setpoint.valid = false) :
    a.cycle f d =
      { (a.observe f).handleInvalid d with
        log := parametersLog f ++ ((a.observe f).handleInvalid d).log } := by
  simp [cycle, h]

theorem handleInvalid_spec (a : Arbiter) (d : Downlink) :
    (a.handleInvalid d).arbiter.selector = a.selector ∧
    (a.handleInvalid d).arbiter.parameters = a.parameters ∧
    (a.handleInvalid d).arbiter.gestures = a.gestures := by
  unfold handleInvalid; simp only []; split <;> exact ⟨rfl, rfl, rfl⟩

theorem setpoint_cycle (a : Arbiter) (f : Feed) (d : Downlink) :
    (a.cycle f d).arbiter.setpoint =
      if (a.observe f).setpoint.valid then (a.observe f).composed f.now
      else (a.observe f).setpoint := by
  cases h : (a.observe f).setpoint.valid
  · rw [cycle_of_invalid a f d h]
    exact congrArg Selector.setpoint (handleInvalid_spec _ d).1
  · rw [cycle_of_valid a f d h]; rfl

theorem slot_cycle (a : Arbiter) (f : Feed) (d : Downlink) :
    (a.cycle f d).arbiter.setpoint.slot = (a.observe f).selector.selected := by
  rw [setpoint_cycle]
  split <;> rfl

theorem selector_cycle (a : Arbiter) (f : Feed) (d : Downlink) :
    (a.cycle f d).arbiter.selector =
      { (a.observe f).selector with setpoint := (a.cycle f d).arbiter.setpoint } := by
  cases h : (a.observe f).setpoint.valid
  · rw [cycle_of_invalid a f d h, Arbiter.setpoint, (handleInvalid_spec _ d).1]
  · rw [cycle_of_valid a f d h]; rfl

/-- An arbiter all of whose parts go by the same parameters. -/
structure Configured (a : Arbiter) (p : Parameters) : Prop where
  parameters : a.parameters = p
  mode : a.selector.mode = p.mode
  timeout : a.selector.timeout = p.lossTimeout
  armDelay : a.gestures.arm.delayFromFalse = p.armHysteresis
  disarmDelay : a.gestures.disarm.delayFromFalse = p.armHysteresis

theorem configured_applyParameters (a : Arbiter) (p : Parameters) :
    (a.applyParameters p).Configured p := ⟨rfl, rfl, rfl, rfl, rfl⟩

theorem configured_begin {a : Arbiter} {p : Parameters} (h : a.Configured p) (f : Feed) :
    (a.begin f).Configured (f.parameters.getD p) := by
  unfold begin
  cases f.parameters with
  | none => exact ⟨h.parameters, h.mode, h.timeout, h.armDelay, h.disarmDelay⟩
  | some q => exact configured_applyParameters _ q

theorem configured_observe {a : Arbiter} {p : Parameters} (h : a.Configured p) (f : Feed) :
    (a.observe f).Configured (f.parameters.getD p) := by
  have hb := configured_begin h f
  obtain ⟨hm, ht, -⟩ := (a.begin f).selector.taken_frame f
  exact ⟨hb.parameters, hm.trans hb.mode, ht.trans hb.timeout, hb.armDelay, hb.disarmDelay⟩

theorem configured_cycle {a : Arbiter} {p : Parameters} (h : a.Configured p) (f : Feed)
    (d : Downlink) : (a.cycle f d).arbiter.Configured (f.parameters.getD p) := by
  have ho := configured_observe h f
  cases hv : (a.observe f).setpoint.valid
  · obtain ⟨hs, hp, hg⟩ := handleInvalid_spec (a.observe f) d
    rw [cycle_of_invalid a f d hv]
    refine ⟨?_, ?_, ?_, ?_, ?_⟩ <;> simp only [hs, hp, hg]
    exacts [ho.parameters, ho.mode, ho.timeout, ho.armDelay, ho.disarmDelay]
  · rw [cycle_of_valid a f d hv]
    refine ⟨ho.parameters, ho.mode, ho.timeout, ?_, ?_⟩
    · simpa [publishValid, GestureDetector.feed] using ho.armDelay
    · simpa [publishValid, GestureDetector.feed] using ho.disarmDelay

theorem begin_spec (a : Arbiter) (f : Feed) :
    (a.begin f).selector.setpoint = a.setpoint ∧
      (a.begin f).selector.slots = a.selector.slots := by
  unfold begin
  cases f.parameters <;> exact ⟨rfl, rfl⟩

theorem phase_begin (a : Arbiter) (f : Feed) : (a.begin f).phase = a.phase := by
  unfold begin
  cases f.parameters <;> rfl

theorem pollInterval_begin (a : Arbiter) (f : Feed) :
    (a.begin f).pollInterval = a.pollInterval := by
  unfold begin
  cases f.parameters <;> rfl

theorem selector_observe (a : Arbiter) (f : Feed) :
    (a.observe f).selector = (a.begin f).selector.taken f := rfl

end Arbiter

/-! ## The arbiter agrees with its moves -/

namespace History

theorem valid_cycle (past : History) (f : Feed) (d : Downlink) :
    (past.cycle f d).arbiter.setpoint.valid = (past.arbiter.observe f).setpoint.valid := by
  have hsp : (past.cycle f d).arbiter.setpoint = _ := past.arbiter.setpoint_cycle f d
  rw [hsp]
  split <;> rfl

theorem configured_arbiter (past : History) : past.arbiter.Configured past.inEffect := by
  induction past with
  | create count p pollInterval => exact Arbiter.configured_applyParameters _ p
  | cycle past f d ih => exact Arbiter.configured_cycle ih f d
  | apply past p _ => exact Arbiter.configured_applyParameters _ p

theorem slotCount_arbiter (past : History) : past.arbiter.selector.slotCount = past.count := by
  induction past with
  | create count p pollInterval => exact List.length_replicate
  | cycle past f d ih =>
    rw [arbiter, Arbiter.selector_cycle]
    refine ((Selector.taken_frame _ f).2.2).trans ?_
    rw [Selector.slotCount, (Arbiter.begin_spec _ f).2]
    exact ih
  | apply past p ih => exact ih

theorem slotCount_begin (past : History) (f : Feed) :
    (past.arbiter.begin f).selector.slotCount = past.count := by
  rw [Selector.slotCount, (Arbiter.begin_spec _ f).2]
  exact past.slotCount_arbiter

theorem reading?_begin (past : History) (f : Feed) (slot : Nat) :
    (past.arbiter.begin f).selector.reading? slot = past.arbiter.selector.reading? slot := by
  rw [Selector.reading?, Selector.reading?, (Arbiter.begin_spec _ f).2]

theorem reading?_arbiter (past : History) (slot : Nat) (h : slot < past.count) :
    past.arbiter.selector.reading? slot = past.last? slot := by
  induction past with
  | create count p pollInterval =>
    have hr : (List.replicate count (none : Option Reading))[slot]? = some none :=
      List.getElem?_replicate_of_lt h
    exact congrArg Option.join hr
  | cycle past f d ih =>
    rw [arbiter, Arbiter.selector_cycle]
    refine ((past.arbiter.begin f).selector.reading?_taken f slot ?_).trans ?_
    · rw [past.slotCount_begin f]
      exact h
    · rw [reading?_begin, ih h]
      rfl
  | apply past p ih => exact ih h

theorem reading?_observe (past : History) (f : Feed) (d : Downlink) (slot : Nat)
    (h : slot < past.count) :
    (past.arbiter.observe f).selector.reading? slot = (past.cycle f d).last? slot := by
  rw [Arbiter.selector_observe, Selector.reading?_taken, reading?_begin, past.reading?_arbiter _ h]
  · rfl
  · rw [past.slotCount_begin f]
    exact h

theorem isLive_iff_liveUnder (past : History) (s : Selector) (p : Parameters) (now : Instant)
    (slot : Nat) (hm : s.mode = p.mode) (ht : s.timeout = p.lossTimeout)
    (hc : s.slotCount = past.count)
    (hr : slot < past.count → s.reading? slot = past.last? slot) :
    s.isLive now slot = true ↔ past.LiveUnder p now slot := by
  rw [Selector.isLive_iff, hm, ht]
  constructor
  · rintro ⟨r, hread, hadmits⟩
    have hlive : s.isLive now slot = true := by
      rw [Selector.isLive_iff, hm, ht]
      exact ⟨r, hread, hadmits⟩
    have hslot : slot < past.count := hc ▸ Selector.lt_slotCount_of_isLive hlive
    simp only [Selector.admits, Bool.and_eq_true, decide_eq_true_eq] at hadmits
    exact ⟨hslot, r, by rw [← hr hslot, hread], hadmits.1.1, hadmits.1.2, hadmits.2⟩
  · rintro ⟨hslot, r, hread, hvalid, haccepts, hage⟩
    exact ⟨r, by rw [hr hslot, hread], by simp [Selector.admits, hvalid, haccepts, hage]⟩

theorem isLive_begin_iff (past : History) (f : Feed) (d : Downlink) (slot : Nat) :
    (past.arbiter.begin f).selector.isLive f.now slot = true ↔
      past.LiveUnder (past.cycle f d).inEffect f.now slot := by
  have hc := Arbiter.configured_begin past.configured_arbiter f
  refine past.isLive_iff_liveUnder _ _ _ _ hc.mode hc.timeout (past.slotCount_begin f) ?_
  intro hslot
  rw [reading?_begin, past.reading?_arbiter _ hslot]

theorem isLive_observe_iff (past : History) (f : Feed) (d : Downlink) (slot : Nat) :
    (past.arbiter.observe f).selector.isLive f.now slot = true ↔
      (past.cycle f d).Live f.now slot := by
  have hc := Arbiter.configured_observe past.configured_arbiter f
  refine (past.cycle f d).isLive_iff_liveUnder _ _ _ _ hc.mode hc.timeout ?_ ?_
  · rw [Arbiter.selector_observe, (Selector.taken_frame _ f).2.2]
    exact past.slotCount_begin f
  · exact past.reading?_observe f d slot

theorem live_begin (past : History) (f : Feed) (d : Downlink) :
    (fun k => (past.arbiter.begin f).selector.isLive f.now k = true) =
      past.LiveUnder (past.cycle f d).inEffect f.now :=
  funext fun k => propext (past.isLive_begin_iff f d k)

theorem live_observe (past : History) (f : Feed) (d : Downlink) :
    (fun k => ((past.arbiter.begin f).selector.taken f).isLive f.now k = true) =
      (past.cycle f d).Live f.now :=
  funext fun k => propext (past.isLive_observe_iff f d k)

theorem selected_begin (past : History) (f : Feed) :
    (past.arbiter.begin f).selector.selected = past.arbiter.setpoint.slot := by
  rw [Selector.selected, (Arbiter.begin_spec _ f).1]

theorem observe_cases (past : History) (f : Feed) (d : Downlink) :
    (∃ slot r, (past.cycle f d).Live f.now slot ∧ (past.cycle f d).last? slot = some r ∧
      (past.arbiter.observe f).setpoint =
        (past.arbiter.observe f).setpoint.showing slot r.sample) ∨
    ((∀ slot, ¬ (past.cycle f d).Live f.now slot) ∧
      (past.arbiter.observe f).setpoint = (past.arbiter.observe f).setpoint.withoutInput) := by
  cases (past.arbiter.begin f).selector.settled_taken f with
  | showing slot r live reading setpoint =>
    have hlive := (past.isLive_observe_iff f d slot).mp live
    have hread := past.reading?_observe f d slot hlive.1
    exact Or.inl ⟨slot, r, hlive, hread.symm.trans reading, setpoint⟩
  | lost dead setpoint =>
    refine Or.inr ⟨fun slot hlive => ?_, setpoint⟩
    have hdead := dead slot
    rw [← past.isLive_observe_iff f d slot, Arbiter.selector_observe, hdead] at hlive
    exact Bool.false_ne_true hlive

theorem observe_of_valid (past : History) (f : Feed) (d : Downlink)
    (h : (past.arbiter.observe f).setpoint.valid = true) :
    ∃ x, (past.cycle f d).shown? = some x ∧ (past.arbiter.observe f).setpoint.axes = x.axes ∧
      (past.arbiter.observe f).setpoint.timestamp = x.timestamp := by
  rcases past.observe_cases f d with ⟨slot, r, -, hread, hseen⟩ | ⟨-, hseen⟩
  · refine ⟨r.sample, ?_, by rw [hseen]; rfl, by rw [hseen]; rfl⟩
    have hslot : (past.cycle f d).arbiter.setpoint.slot = some slot := by
      refine (past.arbiter.slot_cycle f d).trans ?_
      change (past.arbiter.observe f).setpoint.slot = some slot
      rw [hseen]
      rfl
    rw [shown?, hslot, Option.bind_some, hread]
    rfl
  · rw [hseen] at h
    cases h

end History

end StickArbiter
