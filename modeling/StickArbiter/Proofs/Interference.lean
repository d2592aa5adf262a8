import StickArbiter.Proofs.Ahead
import StickArbiter.Proofs.History

/-!
# What unusable samples change

Two histories that differ only in unusable samples of some slots send the same, unless such a sample
comes first where a selection by earlier readings matters.
-/

namespace StickArbiter

def Outcome.sends (o : Outcome) : List Call × Wakeup := (o.calls, o.wakeup)

namespace Arbiter

/-- Two arbiters that agree but for slots that hold nothing usable, setpoints apart. -/
structure Alike (hidden : Nat → Bool) (a b : Arbiter) : Prop where
  gestures : b.gestures = a.gestures
  takeover : b.takeover = a.takeover
  parameters : b.parameters = a.parameters
  pollInterval : b.pollInterval = a.pollInterval
  phase : b.phase = a.phase
  slots : Selector.Twins hidden a.selector b.selector

/-- Two such arbiters whose setpoints are equal, or are both invalid once that was announced. -/
structure Twins (hidden : Nat → Bool) (a b : Arbiter) : Prop extends Alike hidden a b where
  agree : Selector.Agree (a.phase = .tracking) a.selector b.selector

variable {hidden : Nat → Bool} {a b : Arbiter} {m : Mode} {f g : Feed}

theorem Alike.applyParameters (h : Alike hidden a b) (p : Parameters)
    (hmode : p.mode = a.selector.mode) :
    Alike hidden (a.applyParameters p) (b.applyParameters p) := by
  refine ⟨congrArg (·.setDelay p.armHysteresis) h.gestures, h.takeover, rfl, h.pollInterval,
    h.phase, ⟨rfl, rfl, h.slots.slotCount, h.slots.reading, ?_, ?_⟩⟩
  · intro k r hk hr
    exact (congrArg r.sample.usable hmode).trans (h.slots.left k r hk hr)
  · intro k r hk hr
    exact (congrArg r.sample.usable hmode).trans (h.slots.right k r hk hr)

theorem Alike.begin (h : Alike hidden a b) (hfeed : Feed.Twins hidden m f g)
    (hmode : ∀ p, f.parameters = some p → p.mode = a.selector.mode) :
    Alike hidden (a.begin f) (b.begin g) := by
  have hcounted : Alike hidden { a with status := a.status.record f.now }
      { b with status := b.status.record g.now } :=
    ⟨h.gestures, h.takeover, h.parameters, h.pollInterval, h.phase, h.slots⟩
  unfold Arbiter.begin
  rw [hfeed.parameters]
  cases hp : f.parameters with
  | none => exact hcounted
  | some p => exact hcounted.applyParameters p (hmode p hp)

theorem Alike.observe (h : Alike hidden (a.begin f) (b.begin g))
    (hfeed : Feed.Twins hidden (a.begin f).selector.mode f g) :
    Alike hidden (a.observe f) (b.observe g) :=
  ⟨h.gestures, h.takeover, h.parameters, h.pollInterval, h.phase, h.slots.taken hfeed⟩

theorem selected_begin (a : Arbiter) (f : Feed) :
    (a.begin f).selector.selected = a.selector.selected :=
  congrArg Setpoint.slot (begin_spec a f).1

theorem Twins.applyParameters (h : Twins hidden a b) (p : Parameters)
    (hmode : p.mode = a.selector.mode) :
    Twins hidden (a.applyParameters p) (b.applyParameters p) :=
  ⟨h.toAlike.applyParameters p hmode, h.agree⟩

theorem Twins.begin (h : Twins hidden a b) (hfeed : Feed.Twins hidden m f g)
    (hmode : ∀ p, f.parameters = some p → p.mode = a.selector.mode) :
    Twins hidden (a.begin f) (b.begin g) := by
  refine ⟨h.toAlike.begin hfeed hmode, ?_, fun hp => ?_⟩
  · rw [selected_begin, selected_begin, h.agree.1]
  · rw [phase_begin] at hp
    exact ((begin_spec b g).1.trans (h.agree.2 hp)).trans (begin_spec a f).1.symm

/-! ## Sending -/

theorem valid_eq {now : Instant} (h : Selector.Twins hidden a.selector b.selector)
    (ha : a.selector.Settled now) (hb : b.selector.Settled now) :
    b.setpoint.valid = a.setpoint.valid := by
  rw [Bool.eq_iff_iff]
  refine (Selector.valid_iff_of_settled hb).trans ?_
  rw [funext (h.isLive now)]
  exact (Selector.valid_iff_of_settled ha).symm

theorem showing_of_selected {now : Instant} (h : Selector.Twins hidden a.selector b.selector)
    (ha : a.selector.Settled now) (hb : b.selector.Settled now) (hvalid : a.setpoint.valid = true)
    (hs : b.selector.selected = a.selector.selected) :
    ∃ k x, a.setpoint = a.setpoint.showing k x ∧ b.setpoint = b.setpoint.showing k x := by
  have hvalid' := (valid_eq h ha hb).trans hvalid
  cases ha with
  | showing k r live reading hsp =>
    cases hb with
    | showing k' r' live' reading' hsp' =>
      have hk : k' = k := by
        rw [Selector.selected, Selector.selected, hsp, hsp'] at hs
        exact Option.some.inj hs
      subst hk
      have hseen : hidden k' = false := by
        by_contra hhidden
        rw [h.not_live now k' (by simpa using hhidden)] at live
        cases live
      cases (reading'.symm.trans (h.reading k' hseen)).trans reading
      exact ⟨k', r.sample, hsp, hsp'⟩
    | lost _ hsp' =>
      rw [setpoint, hsp'] at hvalid'
      cases hvalid'
  | lost _ hsp =>
    rw [setpoint, hsp] at hvalid
    cases hvalid

theorem publishValid_twins {k : Nat} {x : Sample} (d d' : Downlink) (h : Alike hidden a b)
    (hnow : g.now = f.now) (ha : a.setpoint = a.setpoint.showing k x)
    (hb : b.setpoint = b.setpoint.showing k x) :
    (b.publishValid g d').sends = (a.publishValid f d).sends ∧
      Twins hidden (a.publishValid f d).arbiter (b.publishValid g d').arbiter := by
  have haxes : b.setpoint.axes = a.setpoint.axes := by rw [hb, ha]; rfl
  have htime : b.setpoint.timestamp = a.setpoint.timestamp := by rw [hb, ha]; rfl
  have hreport : b.gestureReport = a.gestureReport := by
    rw [gestureReport, gestureReport, h.gestures, haxes, htime]
  have hcomposed : b.composed f.now = a.composed f.now := by
    unfold composed
    rw [hreport, haxes, h.takeover, h.parameters, hb, ha]
    rfl
  constructor
  · simp only [Outcome.sends, publishValid, hreport, hcomposed, hnow, h.pollInterval]
  · refine ⟨⟨?_, ?_, h.parameters, h.pollInterval, rfl, ?_⟩, ?_⟩
    · simp only [publishValid, h.gestures, haxes, htime]
    · simp only [publishValid, TakeoverDetector.feed, haxes]
    · exact ⟨h.slots.mode, h.slots.timeout, h.slots.slotCount, h.slots.reading, h.slots.left,
        h.slots.right⟩
    · have hsetpoint : b.composed g.now = a.composed f.now := by rw [hnow, hcomposed]
      exact ⟨congrArg Setpoint.slot hsetpoint, fun _ => hsetpoint⟩

theorem handleInvalid_twins (d d' : Downlink) (h : Alike hidden a b)
    (hs : b.selector.selected = a.selector.selected) :
    ((b.handleInvalid d').sends = (a.handleInvalid d).sends ↔
      (a.phase = .tracking → b.setpoint = a.setpoint)) ∧
      Twins hidden (a.handleInvalid d).arbiter (b.handleInvalid d').arbiter := by
  have hphase := h.phase
  unfold handleInvalid
  rw [hphase]
  cases hp : a.phase with
  | lossAnnounced =>
    refine ⟨iff_of_true ?_ (by simp), ?_⟩
    · simp only [Outcome.sends, h.pollInterval]
    · exact ⟨⟨h.gestures, rfl, h.parameters, h.pollInterval, rfl, h.slots⟩, hs, nofun⟩
  | tracking =>
    refine ⟨?_, ⟨⟨h.gestures, rfl, h.parameters, h.pollInterval, rfl, h.slots⟩, hs, nofun⟩⟩
    simp [Outcome.sends, h.pollInterval]

/-- Two cycles send the same exactly if they end alike, and then they leave twins. -/
theorem cycle_twins (d d' : Downlink) (hnow : g.now = f.now)
    (h : Alike hidden (a.observe f) (b.observe g)) :
    ((b.cycle g d').sends = (a.cycle f d).sends ↔
      Selector.EndsAlike ((a.observe f).phase = .tracking) (a.observe f).selector
        (b.observe g).selector) ∧
    ((b.cycle g d').sends = (a.cycle f d).sends →
      Twins hidden (a.cycle f d).arbiter (b.cycle g d').arbiter) := by
  have ha : (a.observe f).selector.Settled f.now := (a.begin f).selector.settled_taken f
  have hb : (b.observe g).selector.Settled f.now := hnow ▸ (b.begin g).selector.settled_taken g
  have hvalid := valid_eq h.slots ha hb
  cases hv : (a.observe f).setpoint.valid with
  | true =>
    rw [hv] at hvalid
    rw [cycle_of_valid a f d hv, cycle_of_valid b g d' hvalid]
    have hpublish : (b.observe g).selector.selected = (a.observe f).selector.selected →
        ((b.observe g).publishValid g d').sends = ((a.observe f).publishValid f d).sends ∧
          Twins hidden ((a.observe f).publishValid f d).arbiter
            ((b.observe g).publishValid g d').arbiter := by
      intro hs
      obtain ⟨k, x, hka, hkb⟩ := showing_of_selected h.slots ha hb hv hs
      exact publishValid_twins d d' h hnow hka hkb
    have hslot : ((b.observe g).publishValid g d').sends =
        ((a.observe f).publishValid f d).sends →
          (b.observe g).selector.selected = (a.observe f).selector.selected :=
      fun heq => congrArg (fun sends => sends.2.onInput) heq
    refine ⟨⟨fun heq => ⟨hslot heq, fun _ hlost => ?_⟩, fun hs => (hpublish hs.1).1⟩,
      fun heq => (hpublish (hslot heq)).2⟩
    cases hv.symm.trans hlost
  | false =>
    rw [hv] at hvalid
    rw [cycle_of_invalid a f d hv, cycle_of_invalid b g d' hvalid]
    have hs : (b.observe g).selector.selected = (a.observe f).selector.selected :=
      (Selector.selected_eq_none hb hvalid).trans (Selector.selected_eq_none ha hv).symm
    obtain ⟨hsends, htwins⟩ := handleInvalid_twins d d' h hs
    refine ⟨hsends.trans ⟨fun h => ⟨hs, fun hp _ => h hp⟩, fun h hp => h.2 hp hv⟩, ?_⟩
    exact fun _ => htwins

end Arbiter

/-! ## Two histories -/

namespace History

def sends : History → List (List Call × Wakeup)
  | create _ _ _ => []
  | cycle past f d => past.sends ++ [(past.outcome f d).sends]
  | apply past _ => past.sends

/-- Two histories in one mode that differ only in unusable samples of hidden slots. -/
inductive Alike (hidden : Nat → Bool) (m : Mode) : History → History → Prop
  | create (count : Nat) (p : Parameters) (pollInterval : Span) (mode : p.mode = m) :
    Alike hidden m (.create count p pollInterval) (.create count p pollInterval)
  | cycle {past past' : History} {f g : Feed} (d d' : Downlink) (alike : Alike hidden m past past')
      (feed : f.Twins hidden m g) (mode : ∀ p, f.parameters = some p → p.mode = m) :
    Alike hidden m (past.cycle f d) (past'.cycle g d')
  | apply {past past' : History} (p : Parameters) (alike : Alike hidden m past past')
      (mode : p.mode = m) :
    Alike hidden m (past.apply p) (past'.apply p)

/-- One of two cycles hears something hidden ahead of the first other slot `d`, and it matters. -/
def Diverts (hidden : Nat → Bool) (past : History) (f g : Feed) : Prop :=
  ∃ d < past.count, f.First hidden d ∧ ¬ (f.Offers d ↔ g.Offers d) ∧
    Hazard ((past.cycle f .open).inEffect.mode.isSticky = true) (past.arbiter.phase = .tracking)
      (past.LiveUnder (past.cycle f .open).inEffect f.now) ((past.cycle f .open).Live f.now)
      past.arbiter.setpoint.slot (past.last? d) past.arbiter.setpoint d

def Diverted (hidden : Nat → Bool) : History → History → Prop
  | cycle past f _, cycle past' g _ => Diverted hidden past past' ∨ Diverts hidden past f g
  | apply past _, apply past' _ => Diverted hidden past past'
  | _, _ => False

theorem hazard_begin (past : History) (f : Feed) (tracking : Prop) (d : Nat) (hd : d < past.count) :
    Hazard ((past.cycle f .open).inEffect.mode.isSticky = true) tracking
      (past.LiveUnder (past.cycle f .open).inEffect f.now) ((past.cycle f .open).Live f.now)
      past.arbiter.setpoint.slot (past.last? d) past.arbiter.setpoint d ↔
    Selector.HazardAt tracking (past.arbiter.begin f).selector f d := by
  have hmode : (past.arbiter.begin f).selector.mode = (past.cycle f .open).inEffect.mode :=
    (Arbiter.configured_begin past.configured_arbiter f).mode
  have hsp : (past.arbiter.begin f).selector.setpoint = past.arbiter.setpoint :=
    (Arbiter.begin_spec _ f).1
  rw [Selector.HazardAt, hmode, past.live_begin f .open, past.live_observe f .open,
    past.selected_begin f, past.reading?_begin f, past.reading?_arbiter d hd, hsp]

theorem mode_begin {past : History} {f : Feed} {m : Mode} (hm : past.inEffect.mode = m)
    (hmode : ∀ p, f.parameters = some p → p.mode = m) :
    (past.arbiter.begin f).selector.mode = m := by
  refine (Arbiter.configured_begin past.configured_arbiter f).mode.trans ?_
  cases hp : f.parameters with
  | none => exact hm
  | some p => exact hmode p hp

theorem mode_of_alike {hidden : Nat → Bool} {m : Mode} {past past' : History}
    (h : Alike hidden m past past') : past.inEffect.mode = m := by
  induction h with
  | create count p pollInterval mode => exact mode
  | @cycle past past' f g d d' _ _ mode ih =>
    rw [inEffect]
    cases hp : f.parameters with
    | none => exact ih
    | some p => exact mode p hp
  | apply p _ mode _ => exact mode

theorem twins_create (hidden : Nat → Bool) (count : Nat) (p : Parameters) (pollInterval : Span) :
    Arbiter.Twins hidden (Arbiter.create count p pollInterval)
      (Arbiter.create count p pollInterval) := by
  have hempty : ∀ k r, (Arbiter.create count p pollInterval).selector.reading? k ≠ some r := by
    intro k r hr
    have hreplicate : (List.replicate count (none : Option Reading))[k]?.join = some r := hr
    rw [List.getElem?_replicate] at hreplicate
    split at hreplicate <;> cases hreplicate
  refine ⟨⟨rfl, rfl, rfl, rfl, rfl, ⟨rfl, rfl, rfl, fun _ _ => rfl, ?_, ?_⟩⟩, .refl _ _⟩
  · intro k r _ hr
    exact absurd hr (hempty k r)
  · intro k r _ hr
    exact absurd hr (hempty k r)

theorem cycle_alike {hidden : Nat → Bool} {m : Mode} {past past' : History} {f g : Feed}
    (d d' : Downlink) (hm : past.inEffect.mode = m) (hfeed : f.Twins hidden m g)
    (hmode : ∀ p, f.parameters = some p → p.mode = m)
    (h : Arbiter.Twins hidden past.arbiter past'.arbiter) :
    ((past'.outcome g d').sends = (past.outcome f d).sends ↔ ¬ Diverts hidden past f g) ∧
      ((past'.outcome g d').sends = (past.outcome f d).sends →
        Arbiter.Twins hidden (past.cycle f d).arbiter (past'.cycle g d').arbiter) := by
  have hmode' : past.arbiter.selector.mode = m := past.configured_arbiter.mode.trans hm
  have hbegin := h.begin hfeed fun p hp => (hmode p hp).trans hmode'.symm
  have hm' := mode_begin hm hmode
  have hcycle := Arbiter.cycle_twins d d' hfeed.now (hbegin.toAlike.observe (hm' ▸ hfeed))
  refine ⟨hcycle.1.trans ?_, hcycle.2⟩
  have hphase : (past.arbiter.observe f).phase = past.arbiter.phase :=
    Arbiter.phase_begin past.arbiter f
  have hagree := hbegin.agree
  rw [Arbiter.phase_begin] at hagree
  rw [hphase, Arbiter.selector_observe, Arbiter.selector_observe,
    Selector.endsAlike_taken_iff hbegin.slots hagree (hm' ▸ hfeed), past.slotCount_begin f]
  constructor
  · rintro hsafe ⟨k, hk, hfirst, hdiff, hhazard⟩
    exact hsafe k hk hfirst hdiff ((past.hazard_begin f _ k hk).mp hhazard)
  · intro hno k hk hfirst hdiff hhazard
    exact hno ⟨k, hk, hfirst, hdiff, (past.hazard_begin f _ k hk).mpr hhazard⟩

theorem sends_alike {hidden : Nat → Bool} {m : Mode} {past past' : History}
    (h : Alike hidden m past past') :
    (past'.sends = past.sends ↔ ¬ Diverted hidden past past') ∧
      (¬ Diverted hidden past past' → Arbiter.Twins hidden past.arbiter past'.arbiter) := by
  induction h with
  | create count p pollInterval _ =>
    exact ⟨iff_of_true rfl id, fun _ => twins_create hidden count p pollInterval⟩
  | @cycle past past' f g d d' halike hfeed hmode ih =>
    rw [sends, sends, Diverted, not_or, List.append_singleton_inj, ih.1]
    have hstep := fun hno =>
      cycle_alike d d' (mode_of_alike halike) hfeed hmode (ih.2 hno)
    refine ⟨and_congr_right fun hno => (hstep hno).1, ?_⟩
    rintro ⟨hno, hsafe⟩
    exact (hstep hno).2 ((hstep hno).1.mpr hsafe)
  | apply p halike hmode ih =>
    refine ⟨ih.1, fun hno => (ih.2 hno).applyParameters p ?_⟩
    rw [hmode, (configured_arbiter _).mode, mode_of_alike halike]

/-- Two histories that differ only in unusable samples of hidden slots send the same and ask for the
same wakeups in every cycle, exactly if none of their cycles diverts. -/
theorem sends_eq_iff_not_diverted {hidden : Nat → Bool} {m : Mode} {past past' : History}
    (h : Alike hidden m past past') : past'.sends = past.sends ↔ ¬ Diverted hidden past past' :=
  (sends_alike h).1

def hearing (t : Instant) (slot : Nat) (other : Nat → Option Sample := fun _ => none) : Feed :=
  { now := t
    sample := fun k =>
      if k = slot then some { axes := .zero, timestamp := t, source := .rc } else other k }

def twoAfterOne : History :=
  .cycle (.cycle (.create 3 {} defaultPollInterval) (hearing .zero 1) .open)
    (hearing (.ofMillis 400) 2) .open

def fault (k : Nat) : Option Sample :=
  if k = 0 then some { axes := .zero, timestamp := .zero, valid := false } else none

theorem twins_hearing (m : Mode) (t : Instant) (slot : Nat) (other : Nat → Option Sample)
    (hslot : slot ≠ 0) (h : ∀ k x, other k = some x → k = 0 ∧ x.usable m = false) :
    (hearing t slot).Twins (· = 0) m (hearing t slot other) := by
  have hne : ∀ k, decide (k = 0) = true → k ≠ slot := by
    intro k hk
    have : k = 0 := of_decide_eq_true hk
    omega
  refine ⟨rfl, rfl, fun k hk => ?_, fun k x hk hx => ?_, fun k x hk hx => ?_⟩
  · have hother : other k = none := by
      by_contra hx
      obtain ⟨x, hx⟩ := Option.ne_none_iff_exists'.mp hx
      exact of_decide_eq_false hk (h k x hx).1
    simp only [hearing, hother]
  · simp only [hearing, if_neg (hne k hk)] at hx
    cases hx
  · simp only [hearing, if_neg (hne k hk)] at hx
    exact (h k x hx).2

theorem alike_fault :
    Alike (· = 0) .fallback (twoAfterOne.cycle (hearing (.ofMillis 600) 1) .open)
      (twoAfterOne.cycle (hearing (.ofMillis 600) 1 fault) .open) := by
  have hfault : ∀ k x, fault k = some x → k = 0 ∧ x.usable .fallback = false := by
    intro k x hx
    unfold fault at hx
    split at hx
    · rename_i hk
      cases hx
      exact ⟨hk, rfl⟩
    · cases hx
  have hnone : ∀ k x, (none : Option Sample) = some x → k = 0 ∧ x.usable .fallback = false := by
    intro k x hx
    cases hx
  have hone := twins_hearing .fallback .zero 1 (fun _ => none) (by decide) hnone
  have htwo := twins_hearing .fallback (.ofMillis 400) 2 (fun _ => none) (by decide) hnone
  have hthree := twins_hearing .fallback (.ofMillis 600) 1 fault (by decide) hfault
  exact .cycle .open .open (.cycle .open .open (.cycle .open .open (.create 3 {} _ rfl) hone nofun)
    htwo nofun) hthree nofun

theorem sends_fault :
    (twoAfterOne.cycle (hearing (.ofMillis 600) 1 fault) .open).sends ≠
      (twoAfterOne.cycle (hearing (.ofMillis 600) 1) .open).sends := by
  decide +kernel

theorem diverted_fault :
    Diverted (· = 0) (twoAfterOne.cycle (hearing (.ofMillis 600) 1) .open)
      (twoAfterOne.cycle (hearing (.ofMillis 600) 1 fault) .open) := by
  by_contra hno
  exact sends_fault ((sends_eq_iff_not_diverted alike_fault).mpr hno)

/-- An unusable sample can matter: it makes slot 2 be selected before slot 1 is heard again. -/
theorem sends_ne_of_alike :
    ¬ ∀ (hidden : Nat → Bool) (m : Mode) (past past' : History), Alike hidden m past past' →
      past'.sends = past.sends :=
  fun h => sends_fault (h _ _ _ _ alike_fault)

end History

end StickArbiter
