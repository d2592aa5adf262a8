import StickArbiter.Proofs.Accepted
import StickArbiter.Proofs.Course
import StickArbiter.Proofs.Displacement
import StickArbiter.Proofs.Reports
import StickArbiter.Station.Sources

/-!
# Held sticks stay live

The timer of a gamepad sends held sticks again. While it keeps its time, what was sent last is never
older than one interval.
-/

namespace StickArbiter

open Gamepad

/-! ## A gamepad on a line -/

namespace Gamepad.Publisher

variable {p : Publisher} {i : Input}

theorem hasReport_next_iff :
    (p.next i).hasReport = true ↔ p.hasReport = true ∨ i = .signal .report := by
  have h := p.hasReport_after [i]
  rw [List.mem_singleton] at h
  rw [eq_comm (a := i)]
  exact h

end Gamepad.Publisher

def Settings.Governs (s : Settings) (q : Parameters) : Prop :=
  q.lossTimeout = s.parameters.lossTimeout ∧ q.mode = s.parameters.mode

/-- The timer that ticked last at `tick` need not have ticked again. -/
def SourceSettings.OnTime (source : SourceSettings) (tick time : Instant) : Prop :=
  tick ≤ time ∧ time.since tick ≤ .ofMillis source.republishIntervalMs

namespace Course

def emit (c : Course) (time : Instant) (slot : Nat) (e : Emission) : Course :=
  let c := match e.switches with
    | some x => c.send time .switches (some x)
    | none => c
  match e.sample with
  | some x => c.send time (.input slot) (some x)
  | none => c

theorem bus_send_input {c : Course} {slot : Nat}
    (h : ∀ ch, c.bus.channel? (.input slot) = some ch → ch.hasSender = true) (time : Instant)
    (x : Option Sample) : (c.send time (.input slot) x).bus = c.bus.sendInput slot x := by
  have hmodify : c.bus.inputs.modify slot (·.step (.send x)) =
      c.bus.inputs.modify slot (·.send x) := by
    apply List.ext_getElem?
    intro k
    rw [List.getElem?_modify, List.getElem?_modify]
    refine Option.map_congr fun ch hch => ?_
    split
    next hk =>
      subst hk
      rw [Latest.step, if_pos (h ch hch)]
    next => rfl
  exact congrArg (fun inputs => { c.bus with inputs := inputs }) hmodify

/-- As long as the senders are there, the bus gets what the gamepad's source puts on it. -/
theorem bus_emit {c : Course} {slot : Nat} (hswitches : c.bus.switches.hasSender = true)
    (hinput : ∀ ch, c.bus.channel? (.input slot) = some ch → ch.hasSender = true)
    (time : Instant) (e : Emission) : (c.emit time slot e).bus = Feeder.emit slot e c.bus := by
  unfold emit Feeder.emit
  cases e.switches with
  | none =>
    cases e.sample with
    | none => rfl
    | some x => exact bus_send_input hinput time (some x)
  | some sw =>
    have hsend : (c.send time .switches (some sw)).bus = c.bus.sendSwitches (some sw) := by
      change { c.bus with switches := c.bus.switches.step (.send (some sw)) } = _
      rw [Latest.step, if_pos hswitches]
      rfl
    cases e.sample with
    | none => exact hsend
    | some x =>
      refine (bus_send_input ?_ time (some x)).trans ?_
      · intro ch hch
        exact hinput ch ((channel?_send_of_ne c time _ (by simp)).symm.trans hch)
      · exact congrArg (Bus.sendInput · slot (some x)) hsend

/-- A course with a gamepad on a slot, its publisher and the last tick of its timer, which keeps its
time. -/
inductive Tended (s : Settings) (slot : Nat) (source : SourceSettings) :
    Course → Publisher → Instant → Prop
  | start (hasSwitches : Bool) (begun : Instant) :
      Tended s slot source
        (start s.arbitration.slotCount s.parameters s.arbitration.slotCount s.parameters
          s.pollInterval)
        (.fresh source.deadzone hasSwitches) begun
  | input {past : Course} {p : Publisher} {tick : Instant} (h : Tended s slot source past p tick)
      (time : Instant) (i : Input) (hopen : i ≠ .close) (htime : source.OnTime tick time) :
      Tended s slot source (past.emit time slot (p.emits time i)) (p.next i)
        (if i = .tick then time else tick)
  | send {past : Course} {p : Publisher} {tick : Instant} (h : Tended s slot source past p tick)
      (time : Instant) (l : Line) (x : l.Value) (hslot : l ≠ .input slot) (hl : l ≠ .parameters)
      (htime : source.OnTime tick time) : Tended s slot source (past.send time l x) p tick
  | tune {past : Course} {p : Publisher} {tick : Instant} (h : Tended s slot source past p tick)
      (time : Instant) (q : Parameters) (hq : s.Governs q) (htime : source.OnTime tick time) :
      Tended s slot source (past.send time .parameters q) p tick
  | leave {past : Course} {p : Publisher} {tick : Instant} (h : Tended s slot source past p tick)
      (time : Instant) (l : Line) (hslot : l ≠ .input slot) (htime : source.OnTime tick time) :
      Tended s slot source (past.leave time l) p tick
  | aside {past : Course} {p : Publisher} {tick : Instant} (h : Tended s slot source past p tick)
      (use : Bus → Bus) (keeps : ∀ b l, (use b).channel? l = b.channel? l) :
      Tended s slot source (past.aside use keeps) p tick
  | cycle {past : Course} {p : Publisher} {tick : Instant} (h : Tended s slot source past p tick)
      (now : Instant) (htime : source.OnTime tick now) :
      Tended s slot source (past.cycle now) p tick

structure Kept (s : Settings) (slot : Nat) (c : Course) (p : Publisher) (tick : Instant) :
    Prop where
  count : c.history.count = s.arbitration.slotCount
  inEffect : s.Governs c.history.inEffect
  known : s.Governs c.bus.parameters.value
  isOpen : p.isOpen = true
  sender : ∃ ch, c.bus.channel? (.input slot) = some ch ∧ ch.hasSender = true
  silent : p.hasReport = false → c.lastSent? (.input slot) = none
  held : p.hasReport = true → ∃ (x : Sending (.input slot)) (v : Sample),
    c.lastSent? (.input slot) = some x ∧ x.value = some v ∧ v.valid = true ∧ tick ≤ x.time

variable {s : Settings} {slot : Nat} {source : SourceSettings} {c : Course} {p : Publisher}
  {tick : Instant}

/-! ## One step -/

theorem Kept.send (h : Kept s slot c p tick) (time : Instant) {l : Line} (x : l.Value)
    (hslot : l ≠ .input slot) (hknown : s.Governs (c.send time l x).bus.parameters.value) :
    Kept s slot (c.send time l x) p tick := by
  obtain ⟨ch, hch, hsender⟩ := h.sender
  have hlast : (c.send time l x).lastSent? (.input slot) = c.lastSent? (.input slot) :=
    dif_neg hslot
  refine ⟨h.count, h.inEffect, hknown, h.isOpen, ?_, ?_, ?_⟩
  · exact ⟨ch, (channel?_send_of_ne c time x hslot).trans hch, hsender⟩
  · rw [hlast]
    exact h.silent
  · rw [hlast]
    exact h.held

theorem Kept.send_of_ne (h : Kept s slot c p tick) (time : Instant) {l : Line} (x : l.Value)
    (hslot : l ≠ .input slot) (hl : l ≠ .parameters) : Kept s slot (c.send time l x) p tick := by
  refine h.send time x hslot ?_
  rw [Option.some.inj (channel?_send_of_ne c time x hl)]
  exact h.known

theorem Kept.tune (h : Kept s slot c p tick) (time : Instant) {q : Parameters} (hq : s.Governs q) :
    Kept s slot (c.send time .parameters q) p tick := by
  refine h.send (l := .parameters) time q (by simp) ?_
  change s.Governs (c.bus.parameters.step (.send q)).value
  rcases c.bus.parameters.step_cases (.send q) with ⟨a, ha, hstep⟩ | ⟨ha, -⟩ | ⟨ha, -⟩ | ⟨-, hstep⟩
  · cases ha
    rw [hstep]
    exact hq
  · cases ha
  · cases ha
  · rw [hstep]
    exact h.known

theorem Kept.leave (h : Kept s slot c p tick) (time : Instant) {l : Line}
    (hslot : l ≠ .input slot) : Kept s slot (c.leave time l) p tick := by
  obtain ⟨ch, hch, hsender⟩ := h.sender
  refine ⟨h.count, h.inEffect, ?_, h.isOpen, ?_, h.silent, h.held⟩
  · by_cases hl : l = .parameters
    · subst hl
      exact h.known
    · rw [Option.some.inj (channel?_leave_of_ne c time hl)]
      exact h.known
  · exact ⟨ch, (channel?_leave_of_ne c time hslot).trans hch, hsender⟩

theorem Kept.aside (h : Kept s slot c p tick) {use : Bus → Bus}
    (keeps : ∀ b l, (use b).channel? l = b.channel? l) :
    Kept s slot (c.aside use keeps) p tick := by
  obtain ⟨ch, hch, hsender⟩ := h.sender
  refine ⟨h.count, h.inEffect, ?_, h.isOpen, ?_, h.silent, h.held⟩
  · rw [Option.some.inj (channel?_aside c use keeps .parameters)]
    exact h.known
  · exact ⟨ch, (channel?_aside c use keeps _).trans hch, hsender⟩

theorem Kept.cycle (h : Kept s slot c p tick) (now : Instant) :
    Kept s slot (c.cycle now) p tick := by
  obtain ⟨ch, hch, hsender⟩ := h.sender
  refine ⟨h.count, ?_, ?_, h.isOpen, ?_, h.silent, h.held⟩
  · change s.Governs (c.bus.parameters.poll?.getD c.history.inEffect)
    unfold Latest.poll?
    split
    · exact h.known
    · exact h.inEffect
  · have hpolled := channel?_cycle c now .parameters
    rw [Bus.movesOn_polls _ (by simp)] at hpolled
    rw [Option.some.inj hpolled]
    change s.Governs c.bus.parameters.polled.value
    unfold Latest.polled
    split
    · exact h.known
    · exact h.known
  · refine ⟨_, (channel?_cycle c now _).trans (congrArg _ hch), ?_⟩
    rw [Latest.hasSender_after, Bus.movesOn_polls_input]
    refine ⟨hsender, ?_⟩
    split <;> simp

theorem Kept.idle (h : Kept s slot c p tick) {i : Input} (hopen : i ≠ .close) (time : Instant)
    (hreport : i ≠ .signal .report) (hquiet : i = .tick → p.hasReport = false) :
    Kept s slot c (p.next i) (if i = .tick then time else tick) := by
  have hnext : (p.next i).hasReport = p.hasReport := by
    rw [Bool.eq_iff_iff, Publisher.hasReport_next_iff]
    exact or_iff_left hreport
  refine ⟨h.count, h.inEffect, h.known, (Publisher.isOpen_next hopen).trans h.isOpen, h.sender,
    ?_, ?_⟩
  · rw [hnext]
    exact h.silent
  · rw [hnext]
    intro hreported
    rw [if_neg fun htick => Bool.false_ne_true ((hquiet htick).symm.trans hreported)]
    exact h.held hreported

theorem Kept.publish (h : Kept s slot c p tick) {i : Input} (hopen : i ≠ .close) (time : Instant)
    (hreport : (p.next i).hasReport = true) (hle : tick ≤ time) :
    Kept s slot (c.send time (.input slot) (some (p.sample time))) (p.next i)
      (if i = .tick then time else tick) := by
  obtain ⟨ch, hch, hsender⟩ := h.sender
  refine ⟨h.count, h.inEffect, h.known, (Publisher.isOpen_next hopen).trans h.isOpen, ?_, ?_, ?_⟩
  · refine ⟨_, (channel?_send_self c time (.input slot) _).trans (congrArg _ hch), ?_⟩
    exact (Latest.hasSender_step _ _).mpr ⟨hsender, by simp⟩
  · intro hsilent
    cases hsilent.symm.trans hreport
  · intro _
    refine ⟨⟨c, time, some (p.sample time)⟩, p.sample time, dif_pos rfl, rfl, rfl, ?_⟩
    split
    · exact Nat.le_refl _
    · exact hle

theorem Kept.input (h : Kept s slot c p tick) {time : Instant} {i : Input} (hopen : i ≠ .close)
    (htime : source.OnTime tick time) :
    Kept s slot (c.emit time slot (p.emits time i)) (p.next i)
      (if i = .tick then time else tick) := by
  obtain ⟨c', hc', hemit⟩ : ∃ c', Kept s slot c' p tick ∧ c.emit time slot (p.emits time i) =
      match (p.emits time i).sample with
      | some x => c'.send time (.input slot) (some x)
      | none => c' := by
    unfold emit
    cases (p.emits time i).switches with
    | none => exact ⟨c, h, rfl⟩
    | some x => exact ⟨_, h.send_of_ne time (l := .switches) (some x) (by simp) (by simp), rfl⟩
  rw [hemit]
  cases hsample : (p.emits time i).sample with
  | none =>
    have hnone : ∀ x, ¬(p.emits time i).sample = some x := fun x => by simp [hsample]
    simp only [Publisher.sample_emits_iff, h.isOpen, true_and] at hnone
    refine hc'.idle hopen time (fun hi => hnone _ ⟨.inl hi, rfl⟩) fun hi => ?_
    exact Bool.eq_false_iff.mpr fun hreport => hnone _ ⟨.inr ⟨hi, hreport⟩, rfl⟩
  | some x =>
    obtain ⟨-, hi, rfl⟩ := (p.sample_emits_iff time i x).mp hsample
    refine hc'.publish hopen time (Publisher.hasReport_next_iff.mpr ?_) htime.1
    exact hi.elim .inr fun hi => .inl hi.2

/-! ## The course -/

theorem Tended.kept (h : Tended s slot source c p tick) (hslot : slot < s.arbitration.slotCount) :
    Kept s slot c p tick := by
  induction h with
  | start hasSwitches begun =>
    have hline := Bus.channel?_ofCount (l := .input slot) s.parameters hslot
    exact ⟨rfl, ⟨rfl, rfl⟩, ⟨rfl, rfl⟩, rfl, ⟨_, hline, rfl⟩, fun _ => rfl, nofun⟩
  | input _ time i hopen htime ih => exact ih.input hopen htime
  | send _ time l x hslot hl _ ih => exact ih.send_of_ne time x hslot hl
  | tune _ time q hq _ ih => exact ih.tune time hq
  | leave _ time l hslot _ ih => exact ih.leave time hslot
  | aside _ use keeps ih => exact ih.aside keeps
  | cycle _ now _ ih => exact ih.cycle now

theorem Kept.live (h : Kept s slot c p tick) {now : Instant} (hordered : (c.cycle now).Ordered)
    (hslot : slot < s.arbitration.slotCount) (hreport : p.hasReport = true)
    (hmode : s.arbitration.mode = .fallback ∨ s.arbitration.mode = .priority)
    (hfresh : now.since tick < s.parameters.lossTimeout) : (c.cycle now).history.Live now slot := by
  obtain ⟨ch, hch, hsender⟩ := h.sender
  obtain ⟨x, v, hx, hv, hvalid, htick⟩ := h.held hreport
  have hcount : slot < c.history.count := h.count ▸ hslot
  obtain ⟨t, ht, hle⟩ := reading_of_lastSent hordered hcount hch hsender hx hv
  have hgoverns := (h.cycle now).inEffect
  refine ⟨hcount, ⟨v, t⟩, ht, hvalid, ?_, ?_⟩
  · rw [hgoverns.2]
    rcases hmode with hmode | hmode <;> simp [Settings.parameters, hmode, Mode.accepts]
  · -- The reading was taken after the send, and that was made after the tick.
    rw [hgoverns.1]
    exact Nat.lt_of_le_of_lt (Instant.since_le_since now (Nat.le_trans htick hle)) hfresh

end Course

theorem History.valid_of_live {past : History} {f : Feed} {d : Downlink} {slot : Nat}
    (h : (past.cycle f d).Live f.now slot) : (past.cycle f d).arbiter.setpoint.valid = true := by
  rw [valid_cycle]
  rcases past.observe_cases f d with ⟨k, r, -, -, hseen⟩ | ⟨hdead, -⟩
  · rw [hseen]
    rfl
  · exact absurd h (hdead slot)

namespace Course

/-- A gamepad whose timer keeps its time stays live from the first cycle that heard it. In the
fallback mode its slot, once selected, is kept by every cycle that does not displace it. -/
theorem held_sticks_live {text : String} {s : Settings} (hread : Settings.ofText text = .ok s)
    (hmode : s.arbitration.mode = .fallback ∨ s.arbitration.mode = .priority) {slot : Nat}
    {source : SourceSettings} (hsource : s.sources[slot]? = some source)
    (hkind : source.kind = .joystick) {c : Course} {p : Publisher} {tick : Instant}
    (h : Tended s slot source c p tick) (now : Instant) (hordered : (c.cycle now).Ordered)
    (htime : source.OnTime tick now)
    (hheard : ((c.cycle now).history.last? slot).isSome = true) :
    (c.cycle now).history.Live now slot ∧ (c.cycle now).history.arbiter.setpoint.valid = true ∧
    (s.arbitration.mode = .fallback → c.history.arbiter.setpoint.slot = some slot →
      ((c.cycle now).history.arbiter.setpoint.slot = some slot ↔
        ¬ Displaced (c.history.LiveUnder (c.cycle now).history.inEffect now)
          ((c.cycle now).history.Live now) (c.bus.feed now) slot)) := by
  have haccepted := Settings.violations_of_ofText hread
  obtain ⟨hlt, rfl⟩ := List.getElem?_eq_some_iff.mp hsource
  have hslot := hlt.trans_le (Settings.slotCount_of_accepted haccepted)
  have hinterval := Settings.interval_of_accepted haccepted (List.getElem_mem hlt) hkind
  have hkept := h.kept hslot
  -- A reading comes from a send, and before the first report nothing is sent.
  have hreport : p.hasReport = true := by
    obtain ⟨r, hr⟩ := Option.isSome_iff_exists.mp hheard
    obtain ⟨x, hx, -⟩ := origin_of_reading hordered (hkept.count ▸ hslot) hr
    have hsent := isSome_lastSent? hx
    by_contra hreport
    rw [(hkept.cycle now).silent (by simpa using hreport)] at hsent
    cases hsent
  have hfresh : now.since tick < s.parameters.lossTimeout := by
    refine Nat.lt_of_le_of_lt htime.2 ?_
    exact Nat.mul_lt_mul_of_pos_right hinterval.2 (by decide)
  have hlive := hkept.live hordered hslot hreport hmode hfresh
  refine ⟨hlive, History.valid_of_live hlive, fun hfallback hselected => ?_⟩
  refine History.slot_eq_iff_not_displaced ?_ hselected hlive
  have hgoverns : (c.cycle now).history.inEffect.mode = s.parameters.mode :=
    (hkept.cycle now).inEffect.2
  change (c.cycle now).history.inEffect.mode.isSticky = true
  rw [hgoverns]
  simp [Settings.parameters, hfallback, Mode.isSticky]

/-- A replay below a gamepad that repeats itself every 400 ms. -/
def replayBelow : Settings :=
  { sources :=
      [{ kind := .replay, path := "p" }, { kind := .joystick, republishIntervalMs := 400 }] }

theorem ofText_replayBelow :
    Settings.ofText ("[[sources]]\nkind = \"replay\"\npath = \"p\"\n" ++
      "[[sources]]\nkind = \"joystick\"\nrepublish_interval_ms = 400\n") = .ok replayBelow :=
  ok_of_toOption (by decide +kernel)

def reportedPad : Publisher := (Publisher.fresh 0.05 false).next (.signal .report)

/-- The replay begins at 500 ms, and the gamepad's tick of 400 ms is not taken before. -/
def rareCycle : Course :=
  .send
    (.emit
      (.cycle
        (.emit (.start 3 replayBelow.parameters 3 replayBelow.parameters replayBelow.pollInterval)
          .zero 1 ((Publisher.fresh 0.05 false).emits .zero (.signal .report)))
        .zero)
      (.ofMillis 400) 1 (reportedPad.emits (.ofMillis 400) .tick))
    (.ofMillis 500) (.input 0)
    (some { axes := .zero, timestamp := .ofMillis 500, source := .rc })

theorem tended_rareCycle :
    Tended replayBelow 1 { kind := .joystick, republishIntervalMs := 400 } rareCycle reportedPad
      (.ofMillis 400) := by
  have hstart : Tended replayBelow 1 { kind := .joystick, republishIntervalMs := 400 } _ _ .zero :=
    .start false .zero
  have hreport := hstart.input .zero (.signal .report) (by simp) ⟨by decide, by decide⟩
  have hcycle := hreport.cycle .zero ⟨by decide, by decide⟩
  have htick := hcycle.input (.ofMillis 400) .tick (by simp) ⟨by decide, by decide⟩
  exact htick.send (.ofMillis 500) (.input 0)
    (some { axes := .zero, timestamp := .ofMillis 500, source := .rc }) (by simp) (by simp)
    ⟨by decide, by decide⟩

theorem slot_rareCycle :
    rareCycle.history.arbiter.setpoint.slot = some 1 ∧
      (rareCycle.cycle (.ofMillis 500)).history.arbiter.setpoint.slot = some 0 := by decide +kernel

/-- The slot is live and yet displaced. -/
theorem held_sticks_live_rareCycle :
    (rareCycle.cycle (.ofMillis 500)).history.Live (.ofMillis 500) 1 ∧
    (rareCycle.cycle (.ofMillis 500)).history.arbiter.setpoint.valid = true ∧
    Displaced
      (rareCycle.history.LiveUnder (rareCycle.cycle (.ofMillis 500)).history.inEffect
        (.ofMillis 500))
      ((rareCycle.cycle (.ofMillis 500)).history.Live (.ofMillis 500))
      (rareCycle.bus.feed (.ofMillis 500)) 1 := by
  obtain ⟨hlive, hvalid, hkept⟩ := held_sticks_live ofText_replayBelow (.inl rfl) rfl rfl
    tended_rareCycle (.ofMillis 500) (by decide +kernel) ⟨by decide, by decide⟩ (by decide +kernel)
  refine ⟨hlive, hvalid, ?_⟩
  by_contra hdisplaced
  have hslot := (hkept rfl slot_rareCycle.1).mpr hdisplaced
  rw [slot_rareCycle.2] at hslot
  cases hslot

/-- A selected gamepad does not always stay selected, although it is always live. -/
theorem held_sticks_not_always_kept :
    ¬ ∀ (text : String) (s : Settings) (slot : Nat) (source : SourceSettings) (c : Course)
      (p : Publisher) (tick now : Instant), Settings.ofText text = .ok s →
      s.arbitration.mode = .fallback → s.sources[slot]? = some source → source.kind = .joystick →
      Tended s slot source c p tick → (c.cycle now).Ordered → source.OnTime tick now →
      ((c.cycle now).history.last? slot).isSome = true →
      c.history.arbiter.setpoint.slot = some slot →
      (c.cycle now).history.arbiter.setpoint.slot = some slot := by
  intro h
  have hslot := h _ replayBelow 1 _ rareCycle reportedPad (.ofMillis 400) (.ofMillis 500)
    ofText_replayBelow rfl rfl rfl tended_rareCycle (by decide +kernel) ⟨by decide, by decide⟩
    (by decide +kernel) slot_rareCycle.1
  rw [slot_rareCycle.2] at hslot
  cases hslot

end Course

end StickArbiter
