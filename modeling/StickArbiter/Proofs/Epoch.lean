import Mathlib.Data.List.Forall2
import StickArbiter.Proofs.Interference
import StickArbiter.Proofs.Requests

/-!
# The origin of the clock

Only differences of instants matter. Two instants that are there before any time is known stay as
they are: no pending transition, and a stamp of zero.
-/

namespace StickArbiter

variable {c : Int}

def Instant.Shifted (c : Int) (s t : Instant) : Prop := (t.micros : Int) = s.micros + c

theorem Instant.Shifted.since {later later' earlier earlier' : Instant}
    (hlater : later.Shifted c later') (hearlier : earlier.Shifted c earlier') :
    later'.since earlier' = later.since earlier := by
  unfold Shifted at hlater hearlier
  have hdiff : later'.micros - earlier'.micros = later.micros - earlier.micros := by omega
  unfold Instant.since
  rw [hdiff]

/-- An instant that is on the clock when it is moved as well. -/
def Instant.Fits (c : Int) (t : Instant) : Prop := 0 ≤ t.micros + c ∧ t.micros + c < UInt64.size

theorem Instant.Fits.exists_shifted {t : Instant} (h : t.Fits c) : ∃ t', t.Shifted c t' := by
  obtain ⟨hle, hlt⟩ := h
  refine ⟨⟨(t.micros + c).toNat, by omega⟩, ?_⟩
  unfold Shifted
  dsimp only
  omega

structure Sample.Shifted (c : Int) (x x' : Sample) : Prop where
  axes : x'.axes = x.axes
  timestamp : x.timestamp.Shifted c x'.timestamp
  source : x'.source = x.source
  valid : x'.valid = x.valid

structure Reading.Shifted (c : Int) (r r' : Reading) : Prop where
  sample : r.sample.Shifted c r'.sample
  received : r.received.Shifted c r'.received

/-- The same but for the stamp, of which an untouched setpoint has none. -/
inductive Setpoint.Shifted (c : Int) : Setpoint → Setpoint → Prop
  | moved (sp : Setpoint) {t : Instant} (stamp : sp.timestamp.Shifted c t) :
    Shifted c sp { sp with timestamp := t }
  | never : Shifted c .invalid .invalid

namespace Setpoint.Shifted

variable {sp sp' : Setpoint} {x x' : Sample}

theorem agree (h : sp.Shifted c sp') :
    sp'.axes = sp.axes ∧ sp'.valid = sp.valid ∧ sp'.slot = sp.slot := by
  cases h <;> exact ⟨rfl, rfl, rfl⟩

theorem timestamp (h : sp.Shifted c sp') (hvalid : sp.valid = true) :
    sp.timestamp.Shifted c sp'.timestamp := by
  cases h with
  | moved _ hstamp => exact hstamp
  | never => cases hvalid

theorem showing (h : sp.Shifted c sp') (slot : Nat) (hx : x.Shifted c x') :
    (sp.showing slot x).Shifted c (sp'.showing slot x') := by
  obtain ⟨axes, stamp, source, valid⟩ := x
  obtain ⟨haxes, hstamp, hsource, -⟩ := hx
  unfold Setpoint.showing
  rw [haxes, hsource]
  cases h <;> exact moved _ hstamp

theorem withoutInput (h : sp.Shifted c sp') : sp.withoutInput.Shifted c sp'.withoutInput := by
  cases h with
  | moved _ hstamp => exact moved _ hstamp
  | never => exact never

end Setpoint.Shifted

/-! ## Selecting -/

structure Selector.Shifted (c : Int) (s s' : Selector) : Prop where
  slotCount : s'.slotCount = s.slotCount
  reading : ∀ slot, Option.Rel (Reading.Shifted c) (s.reading? slot) (s'.reading? slot)
  mode : s'.mode = s.mode
  timeout : s'.timeout = s.timeout
  setpoint : s.setpoint.Shifted c s'.setpoint

structure Feed.Shifted (c : Int) (f f' : Feed) : Prop where
  now : f.now.Shifted c f'.now
  parameters : f'.parameters = f.parameters
  sample : ∀ slot, Option.Rel (Sample.Shifted c) (f.sample slot) (f'.sample slot)

structure Feed.Fits (c : Int) (f : Feed) : Prop where
  now : f.now.Fits c
  sample : ∀ slot x, f.sample slot = some x → x.timestamp.Fits c

theorem Feed.Fits.exists_shifted {f : Feed} (h : f.Fits c) : ∃ f', f.Shifted c f' := by
  obtain ⟨now', hnow⟩ := h.now.exists_shifted
  have hsample (slot : Nat) : ∃ x', Option.Rel (Sample.Shifted c) (f.sample slot) x' := by
    cases hx : f.sample slot with
    | none => exact ⟨none, .none⟩
    | some x =>
      obtain ⟨t, ht⟩ := (h.sample slot x hx).exists_shifted
      exact ⟨some { x with timestamp := t }, .some ⟨rfl, ht, rfl, rfl⟩⟩
  choose sample' hsample using hsample
  exact ⟨{ f with now := now', sample := sample' }, hnow, rfl, hsample⟩

namespace Selector.Shifted

variable {s s' : Selector} {f f' : Feed} {now now' : Instant} {x x' : Sample}

theorem admits (m : Mode) (timeout : Span) (hnow : now.Shifted c now') {r r' : Reading}
    (h : r.Shifted c r') : Selector.admits m timeout now' r' = Selector.admits m timeout now r := by
  unfold Selector.admits
  rw [hnow.since h.received, h.sample.valid, h.sample.source]

theorem isLive (h : s.Shifted c s') (hnow : now.Shifted c now') (slot : Nat) :
    s'.isLive now' slot = s.isLive now slot := by
  have hreading := h.reading slot
  unfold Selector.isLive
  rw [h.mode, h.timeout]
  generalize s.reading? slot = r, s'.reading? slot = r' at hreading ⊢
  cases hreading with
  | none => rfl
  | some hr => exact admits s.mode s.timeout hnow hr

theorem choice? (h : s.Shifted c s') (hnow : now.Shifted c now') :
    s'.choice? now' = s.choice? now := by
  unfold Selector.choice? Selector.lowestLive? Selector.selected
  simp only [h.slotCount, h.mode, h.setpoint.agree.2.2, funext (h.isLive hnow)]

theorem select (h : s.Shifted c s') (hnow : now.Shifted c now') :
    (s.select now).Shifted c (s'.select now') := by
  refine ⟨h.slotCount, h.reading, h.mode, h.timeout, ?_⟩
  unfold Selector.select
  rw [h.choice? hnow]
  cases s.choice? now with
  | none => exact h.setpoint.withoutInput
  | some slot =>
    have hreading := h.reading slot
    simp only [Option.bind_some]
    generalize s.reading? slot = r, s'.reading? slot = r' at hreading ⊢
    cases hreading with
    | none => exact h.setpoint.withoutInput
    | some hr => exact h.setpoint.showing slot hr.sample

theorem deliver (h : s.Shifted c s') (hnow : now.Shifted c now') (slot : Nat)
    (hx : x.Shifted c x') : (s.deliver now slot x).Shifted c (s'.deliver now' slot x') := by
  unfold Selector.deliver
  rw [h.slotCount]
  split
  · rename_i hslot
    have hslot' := hslot
    rw [← h.slotCount] at hslot'
    refine Shifted.select ⟨?_, fun k => ?_, h.mode, h.timeout, h.setpoint⟩ hnow
    · simpa only [slotCount_record] using h.slotCount
    · rw [reading?_record s now slot x k hslot, reading?_record s' now' slot x' k hslot']
      split
      · exact .some ⟨hx, hnow⟩
      · exact h.reading k
  · exact h

theorem taking (h : s.Shifted c s') (hfeed : f.Shifted c f') (n : Nat) :
    (s.taking f n).Shifted c (s'.taking f' n) := by
  induction n with
  | zero => exact h
  | succ n ih =>
    have hsample := hfeed.sample n
    cases hx : f.sample n with
    | none =>
      rw [hx] at hsample
      cases hx' : f'.sample n with
      | none => rwa [taking_succ_of_none s f n hx, taking_succ_of_none s' f' n hx']
      | some x' => rw [hx'] at hsample; cases hsample
    | some x =>
      rw [hx] at hsample
      cases hx' : f'.sample n with
      | none => rw [hx'] at hsample; cases hsample
      | some x' =>
        rw [hx'] at hsample
        cases hsample with
        | some hxx' =>
          rw [taking_succ_of_some s f n x hx, taking_succ_of_some s' f' n x' hx']
          exact ih.deliver hfeed.now n hxx'

theorem taken (h : s.Shifted c s') (hfeed : f.Shifted c f') :
    (s.taken f).Shifted c (s'.taken f') := by
  rw [taken_eq, taken_eq, h.slotCount]
  exact (h.taking hfeed s.slotCount).select hfeed.now

end Selector.Shifted

/-! ## Timing gestures -/

structure Debounce.Shifted (c : Int) (d d' : Debounce) : Prop where
  confirmed : d'.confirmed = d.confirmed
  pendingSince : Option.Rel (Instant.Shifted c) d.pendingSince d'.pendingSince
  delayFromTrue : d'.delayFromTrue = d.delayFromTrue
  delayFromFalse : d'.delayFromFalse = d.delayFromFalse

structure GestureDetector.Shifted (c : Int) (g g' : GestureDetector) : Prop where
  arm : g.arm.Shifted c g'.arm
  disarm : g.disarm.Shifted c g'.disarm

namespace Debounce.Shifted

variable {d d' : Debounce} {now now' : Instant}

theorem delay (h : d.Shifted c d') : d'.delay = d.delay := by
  unfold Debounce.delay
  rw [h.confirmed, h.delayFromTrue, h.delayFromFalse]

theorem tick (h : d.Shifted c d') (hnow : now.Shifted c now') :
    (d.tick now).Shifted c (d'.tick now') := by
  have hpending := h.pendingSince
  unfold Debounce.tick
  rw [h.delay]
  generalize d.pendingSince = p, d'.pendingSince = p' at hpending ⊢
  cases hpending with
  | none => exact h
  | some hsince =>
    simp only [hnow.since hsince]
    split
    · exact ⟨congrArg not h.confirmed, .none, h.delayFromTrue, h.delayFromFalse⟩
    · exact h

theorem note (h : d.Shifted c d') (input : Bool) (hnow : now.Shifted c now') :
    (d.note input now).Shifted c (d'.note input now') := by
  unfold Debounce.note
  rw [h.confirmed]
  split
  · exact ⟨rfl, .none, h.delayFromTrue, h.delayFromFalse⟩
  · refine ⟨rfl, .some ?_, h.delayFromTrue, h.delayFromFalse⟩
    have hpending := h.pendingSince
    generalize d.pendingSince = p, d'.pendingSince = p' at hpending ⊢
    cases hpending with
    | none => exact hnow
    | some hsince => exact hsince

theorem feed (h : d.Shifted c d') (input : Bool) (hnow : now.Shifted c now') :
    (d.feed input now).Shifted c (d'.feed input now') :=
  (h.note input hnow).tick hnow

theorem setDelayFrom (h : d.Shifted c d') (state : Bool) (delay : Span) :
    (d.setDelayFrom state delay).Shifted c (d'.setDelayFrom state delay) := by
  unfold Debounce.setDelayFrom
  split
  · exact ⟨h.confirmed, h.pendingSince, rfl, h.delayFromFalse⟩
  · exact ⟨h.confirmed, h.pendingSince, h.delayFromTrue, rfl⟩

end Debounce.Shifted

namespace GestureDetector.Shifted

variable {g g' : GestureDetector} {now now' : Instant}

theorem feed (h : g.Shifted c g') (a : Axes) (hnow : now.Shifted c now') :
    (g.feed a now).Shifted c (g'.feed a now') :=
  ⟨h.arm.feed _ hnow, h.disarm.feed _ hnow⟩

theorem report (h : g.Shifted c g') (a : Axes) (hnow : now.Shifted c now') :
    g'.report a now' = g.report a now := by
  obtain ⟨harm, hdisarm⟩ := h.feed a hnow
  unfold GestureDetector.report
  simp only [harm.confirmed, hdisarm.confirmed, h.arm.confirmed, h.disarm.confirmed]

end GestureDetector.Shifted

/-! ## A cycle -/

structure CycleStatus.Shifted (c : Int) (s s' : CycleStatus) : Prop where
  cycles : s'.cycles = s.cycles
  lastCycle : Option.Rel (Instant.Shifted c) s.lastCycle s'.lastCycle
  lastInterval : s'.lastInterval = s.lastInterval
  maxInterval : s'.maxInterval = s.maxInterval

theorem CycleStatus.Shifted.record {s s' : CycleStatus} {now now' : Instant} (h : s.Shifted c s')
    (hnow : now.Shifted c now') : (s.record now).Shifted c (s'.record now') := by
  have hinterval : s'.lastCycle.map now'.since = s.lastCycle.map now.since := by
    have hlast := h.lastCycle
    generalize s.lastCycle = t, s'.lastCycle = t' at hlast ⊢
    cases hlast with
    | none => simp only [Option.map_none]
    | some ht => exact congrArg some (hnow.since ht)
  unfold CycleStatus.record
  rw [hinterval, h.cycles, h.lastInterval, h.maxInterval]
  exact ⟨rfl, .some hnow, rfl, rfl⟩

inductive Call.Shifted (c : Int) : Call → Call → Prop
  | command (x : Command) {t : Instant} (stamp : x.timestamp.Shifted c t) :
    Shifted c (.command x) (.command { x with timestamp := t })
  | publish {sp sp' : Setpoint} (setpoint : sp.Shifted c sp') :
    Shifted c (.publish sp) (.publish sp')

structure Arbiter.Shifted (c : Int) (a a' : Arbiter) : Prop where
  selector : a.selector.Shifted c a'.selector
  gestures : a.gestures.Shifted c a'.gestures
  takeover : a'.takeover = a.takeover
  parameters : a'.parameters = a.parameters
  pollInterval : a'.pollInterval = a.pollInterval
  phase : a'.phase = a.phase
  lastSelected : a'.lastSelected = a.lastSelected
  status : a.status.Shifted c a'.status

/-- The same calls but for their stamps, and the same wakeup. -/
structure Outcome.Shifted (c : Int) (o o' : Outcome) : Prop where
  arbiter : o.arbiter.Shifted c o'.arbiter
  calls : List.Forall₂ (Call.Shifted c) o.calls o'.calls
  wakeup : o'.wakeup = o.wakeup

namespace Arbiter.Shifted

variable {a a' : Arbiter} {f f' : Feed}

theorem applyParameters (h : a.Shifted c a') (p : Parameters) :
    (a.applyParameters p).Shifted c (a'.applyParameters p) :=
  { h with
    selector := { h.selector with mode := rfl, timeout := rfl }
    gestures := ⟨h.gestures.arm.setDelayFrom false _, h.gestures.disarm.setDelayFrom false _⟩
    parameters := rfl }

theorem begin (h : a.Shifted c a') (hfeed : f.Shifted c f') :
    (a.begin f).Shifted c (a'.begin f') := by
  have hcounted : Shifted c { a with status := a.status.record f.now }
      { a' with status := a'.status.record f'.now } :=
    { h with status := h.status.record hfeed.now }
  unfold Arbiter.begin
  rw [hfeed.parameters]
  cases f.parameters with
  | none => exact hcounted
  | some p => exact hcounted.applyParameters p

theorem observe (h : a.Shifted c a') (hfeed : f.Shifted c f') :
    (a.observe f).Shifted c (a'.observe f') :=
  { h.begin hfeed with selector := (h.begin hfeed).selector.taken hfeed }

theorem setpoint (h : a.Shifted c a') : a.setpoint.Shifted c a'.setpoint := h.selector.setpoint

theorem gestureReport (h : a.Shifted c a') (hvalid : a.setpoint.valid = true) :
    a'.gestureReport = a.gestureReport := by
  unfold Arbiter.gestureReport
  rw [h.setpoint.agree.1]
  exact h.gestures.report _ (h.setpoint.timestamp hvalid)

theorem composed {now now' : Instant} (h : a.Shifted c a') (hvalid : a.setpoint.valid = true)
    (hnow : now.Shifted c now') : (a.composed now).Shifted c (a'.composed now') := by
  have hreport := h.gestureReport hvalid
  have hsetpoint := h.setpoint
  unfold Arbiter.composed
  rw [hreport, h.takeover, h.parameters]
  generalize a.setpoint = sp, a'.setpoint = sp' at hsetpoint ⊢
  cases hsetpoint <;> exact .moved _ hnow

theorem publishValid (h : a.Shifted c a') (hfeed : f.Shifted c f') (d d' : Downlink)
    (hvalid : a.setpoint.valid = true) :
    (a.publishValid f d).Shifted c (a'.publishValid f' d') := by
  obtain ⟨haxes, -, hslot⟩ := h.setpoint.agree
  have hstamp := h.setpoint.timestamp hvalid
  have hcomposed := h.composed hvalid hfeed.now
  refine ⟨?_, ?_, ?_⟩
  · unfold Arbiter.publishValid
    simp only [haxes]
    exact
      { h with
        selector := { h.selector with setpoint := hcomposed }
        gestures := h.gestures.feed _ hstamp
        takeover := rfl
        phase := rfl
        lastSelected := hslot }
  · unfold Arbiter.publishValid
    simp only [h.gestureReport hvalid]
    refine List.rel_append ?_ (.cons (.publish hcomposed) .nil)
    rw [List.forall₂_map_left_iff, List.forall₂_map_right_iff, List.forall₂_same]
    exact fun arm _ => .command (.request arm f.now) hfeed.now
  · unfold Arbiter.publishValid Arbiter.composed
    simp only [h.pollInterval, hslot]

theorem handleInvalid (h : a.Shifted c a') (d d' : Downlink) :
    (a.handleInvalid d).Shifted c (a'.handleInvalid d') := by
  have hlost (phase : Phase) :
      Shifted c { a with lastSelected := none, takeover := a.takeover.reset, phase := phase }
        { a' with lastSelected := none, takeover := a'.takeover.reset, phase := phase } :=
    { h with takeover := rfl, phase := rfl, lastSelected := rfl }
  have hwakeup := congrArg (fun t => ({ timeout := t } : Wakeup)) h.pollInterval
  unfold Arbiter.handleInvalid
  rw [h.phase]
  cases a.phase with
  | lossAnnounced => exact ⟨hlost _, .nil, hwakeup⟩
  | tracking => exact ⟨hlost _, .cons (.publish h.setpoint) .nil, hwakeup⟩

theorem cycle (h : a.Shifted c a') (hfeed : f.Shifted c f') (d d' : Downlink) :
    (a.cycle f d).Shifted c (a'.cycle f' d') := by
  have hobserve := h.observe hfeed
  have hvalid' : (a'.observe f').setpoint.valid = (a.observe f).setpoint.valid :=
    hobserve.setpoint.agree.2.1
  cases hvalid : (a.observe f).setpoint.valid with
  | true =>
    rw [cycle_of_valid a f d hvalid, cycle_of_valid a' f' d' (hvalid'.trans hvalid)]
    obtain ⟨harbiter, hcalls, hwakeup⟩ := hobserve.publishValid hfeed d d' hvalid
    exact ⟨harbiter, hcalls, hwakeup⟩
  | false =>
    rw [cycle_of_invalid a f d hvalid, cycle_of_invalid a' f' d' (hvalid'.trans hvalid)]
    obtain ⟨harbiter, hcalls, hwakeup⟩ := hobserve.handleInvalid d d'
    exact ⟨harbiter, hcalls, hwakeup⟩

end Arbiter.Shifted

/-! ## Histories -/

namespace History

/-- Two histories that run `c` microseconds apart. -/
inductive Shifted (c : Int) : History → History → Prop
  | create (count : Nat) (p : Parameters) (pollInterval : Span) :
    Shifted c (.create count p pollInterval) (.create count p pollInterval)
  | cycle {past past' : History} {f f' : Feed} (d d' : Downlink) (shifted : Shifted c past past')
      (feed : f.Shifted c f') : Shifted c (past.cycle f d) (past'.cycle f' d')
  | apply {past past' : History} (p : Parameters) (shifted : Shifted c past past') :
    Shifted c (past.apply p) (past'.apply p)

def Fits (c : Int) : History → Prop
  | create _ _ _ => True
  | cycle past f _ => past.Fits c ∧ f.Fits c
  | apply past _ => past.Fits c

variable {past past' : History}

theorem Fits.exists_shifted (h : past.Fits c) : ∃ past', past.Shifted c past' := by
  induction past with
  | create count p pollInterval => exact ⟨_, .create count p pollInterval⟩
  | cycle past f d ih =>
    obtain ⟨past', hpast⟩ := ih h.1
    obtain ⟨f', hfeed⟩ := h.2.exists_shifted
    exact ⟨_, .cycle d d hpast hfeed⟩
  | apply past p ih =>
    obtain ⟨past', hpast⟩ := ih h
    exact ⟨_, .apply p hpast⟩

theorem shifted_create (c : Int) (count : Nat) (p : Parameters) (pollInterval : Span) :
    (Arbiter.create count p pollInterval).Shifted c (.create count p pollInterval) := by
  have hempty (slot : Nat) :
      (Arbiter.create count p pollInterval).selector.reading? slot = none := by
    change (List.replicate count none)[slot]?.join = none
    rw [List.getElem?_replicate]
    split <;> rfl
  have hreading (slot : Nat) : Option.Rel (Reading.Shifted c)
      ((Arbiter.create count p pollInterval).selector.reading? slot)
      ((Arbiter.create count p pollInterval).selector.reading? slot) := by
    rw [hempty slot]
    exact .none
  exact ⟨⟨rfl, hreading, rfl, rfl, .never⟩, ⟨⟨rfl, .none, rfl, rfl⟩, ⟨rfl, .none, rfl, rfl⟩⟩,
    rfl, rfl, rfl, rfl, rfl, ⟨rfl, .none, rfl, rfl⟩⟩

theorem Shifted.arbiter (h : Shifted c past past') : past.arbiter.Shifted c past'.arbiter := by
  induction h with
  | create count p pollInterval => exact shifted_create c count p pollInterval
  | cycle d d' _ hfeed ih => exact (ih.cycle hfeed d d').arbiter
  | apply p _ ih => exact ih.applyParameters p

theorem Shifted.sends (h : Shifted c past past') :
    List.Forall₂ (fun o o' => List.Forall₂ (Call.Shifted c) o.1 o'.1 ∧ o'.2 = o.2)
      past.sends past'.sends := by
  induction h with
  | create => exact .nil
  | cycle d d' h hfeed ih =>
    have hcycle := h.arbiter.cycle hfeed d d'
    exact List.rel_append ih (.cons ⟨hcycle.calls, hcycle.wakeup⟩ .nil)
  | apply p _ ih => exact ih

theorem Shifted.cycles (h : Shifted c past past') :
    List.Forall₂ (fun p p' => p.arbiter.Shifted c p'.arbiter) past.cycles past'.cycles := by
  induction h with
  | create => exact .nil
  | cycle d d' h hfeed ih =>
    exact List.rel_append ih (.cons (Shifted.cycle d d' h hfeed).arbiter .nil)
  | apply p _ ih => exact ih

/-- A history moved in time sends the same in every cycle with the stamps moved, as long as its
times stay on the clock. -/
theorem sends_shifted (c : Int) (past : History) (h : past.Fits c) :
    (∃ past', past.Shifted c past') ∧
    ∀ past', past.Shifted c past' →
      List.Forall₂ (fun o o' => List.Forall₂ (Call.Shifted c) o.1 o'.1 ∧ o'.2 = o.2)
        past.sends past'.sends ∧
      List.Forall₂ (fun p p' => p.arbiter.Shifted c p'.arbiter) past.cycles past'.cycles ∧
      past.arbiter.Shifted c past'.arbiter :=
  ⟨h.exists_shifted, fun _ hshifted => ⟨hshifted.sends, hshifted.cycles, hshifted.arbiter⟩⟩

/-- The arming sticks, held for the 100 ms that the gesture takes. -/
def heldFrom (t t' : Instant) : History :=
  .cycle (.cycle (.create 1 { armHysteresis := .ofMillis 100 } defaultPollInterval)
    (showing true t none) .open) (showing true t' none) .open

theorem fits_showing (arm : Bool) {t : Instant} (h : t.Fits c) : (showing arm t none).Fits c := by
  refine ⟨h, ?_⟩
  rintro slot x ⟨⟩
  exact h

theorem shifted_showing (arm : Bool) {t t' : Instant} (h : t.Shifted c t') :
    (showing arm t none).Shifted c (showing arm t' none) :=
  ⟨h, rfl, fun _ => .some ⟨rfl, h, rfl, rfl⟩⟩

/-- Half a second later the request for arming comes half a second later. -/
theorem sends_shifted_heldFrom :
    List.Forall₂ (fun o o' => List.Forall₂ (Call.Shifted 500000) o.1 o'.1 ∧ o'.2 = o.2)
      (heldFrom .zero (.ofMillis 100)).sends
      (heldFrom (.ofMillis 500) (.ofMillis 600)).sends ∧
    (heldFrom (.ofMillis 500) (.ofMillis 600)).sends.map (·.1.filterMap Call.command?) =
      [[], [.request true (.ofMillis 600)]] := by
  have hfits : (heldFrom .zero (.ofMillis 100)).Fits 500000 :=
    ⟨⟨trivial, fits_showing true ⟨by decide, by decide⟩⟩,
      fits_showing true ⟨by decide, by decide⟩⟩
  have hshifted : (heldFrom .zero (.ofMillis 100)).Shifted 500000
      (heldFrom (.ofMillis 500) (.ofMillis 600)) :=
    .cycle _ _ (.cycle _ _ (.create _ _ _) (shifted_showing true rfl)) (shifted_showing true rfl)
  exact ⟨((sends_shifted _ _ hfits).2 _ hshifted).1, by decide +kernel⟩

end History

end StickArbiter
