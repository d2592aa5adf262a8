import StickArbiter.Proofs.Accepted
import StickArbiter.Proofs.Course

/-!
# Reloading while gamepads run

A reload leaves gamepads as they were started, while the rules compare intervals only with the
timeout of their own file.
-/

namespace StickArbiter

/-! ## What is started -/

namespace Feeder

variable {w : Surroundings} {d : Gamepad.Device} {deadzone : Float32} {intervalMs : Nat}
  {hasSwitches : Bool}

theorem source_of_startGamepad {slot : Nat} {s : SourceSettings} {first : Bool}
    (h : .gamepad d deadzone intervalMs hasSwitches ∈ (startGamepad w slot s first).started) :
    s.republishIntervalMs = intervalMs := by
  unfold startGamepad at h
  simp only [] at h
  split at h
  next => cases h
  next =>
    split at h
    next => cases h
    next =>
      cases List.mem_singleton.mp h
      rfl

theorem not_gamepad_of_startReplay {slot : Nat} {s : SourceSettings} :
    .gamepad d deadzone intervalMs hasSwitches ∉ (startReplay w slot s).started := by
  intro h
  unfold startReplay at h
  split at h
  next => cases h
  next =>
    split at h
    next => cases h
    next => cases List.mem_singleton.mp h

theorem source_of_startFrom {slot : Nat} {first : Bool} {sources : List SourceSettings}
    (h : .gamepad d deadzone intervalMs hasSwitches ∈ (startFrom w slot first sources).started) :
    ∃ s ∈ sources, s.kind = .joystick ∧ s.republishIntervalMs = intervalMs := by
  induction sources generalizing slot first with
  | nil => cases h
  | cons s rest ih =>
    have hrest : ∀ {first}, .gamepad d deadzone intervalMs hasSwitches ∈
        (startFrom w (slot + 1) first rest).started →
        ∃ s' ∈ s :: rest, s'.kind = .joystick ∧ s'.republishIntervalMs = intervalMs := by
      intro first h
      obtain ⟨s', hmem, hs'⟩ := ih h
      exact ⟨s', List.mem_cons_of_mem _ hmem, hs'⟩
    cases hkind : s.kind with
    | joystick =>
      have hfirst : .gamepad d deadzone intervalMs hasSwitches ∈
          (startGamepad w slot s first).started →
          ∃ s' ∈ s :: rest, s'.kind = .joystick ∧ s'.republishIntervalMs = intervalMs :=
        fun h => ⟨s, List.mem_cons_self, hkind, source_of_startGamepad h⟩
      simp only [startFrom, hkind] at h
      split at h
      next => exact hfirst h
      next => exact (List.mem_append.mp h).elim hfirst hrest
    | replay =>
      simp only [startFrom, hkind] at h
      split at h
      next => exact absurd h not_gamepad_of_startReplay
      next => exact (List.mem_append.mp h).elim (absurd · not_gamepad_of_startReplay) hrest

end Feeder

namespace Station

theorem source_of_openAt {w : Surroundings} {path : String} {station : Station}
    (h : (openAt w path).result = .ok station) :
    Settings.ofFile (w.read path) = .ok station.settings ∧
      station.feeders = (Feeder.startAll w station.settings.arbitration.slotCount
        station.settings.sources).started := by
  unfold openAt at h
  split at h
  next => cases h
  next s hread =>
    simp only [] at h
    split at h
    next => cases h
    next =>
      split at h
      next => cases h
      next =>
        cases h
        exact ⟨hread, rfl⟩

end Station

/-! ## What is in effect -/

namespace Course

def reload (c : Course) (time : Instant) : Reload → Course
  | .ok s => c.send time .parameters s.parameters
  | .error _ => c

/-- A course of the program, and the settings accepted last. -/
inductive Reloaded (first : Settings) : Course → Settings → Prop
  | start : Reloaded first
      (start first.arbitration.slotCount first.parameters first.arbitration.slotCount
        first.parameters first.pollInterval) first
  | reload {past : Course} {current : Settings} (h : Reloaded first past current) (time : Instant)
      (file : Except IoFault (List UInt8)) :
      Reloaded first (past.reload time (Settings.ofFile file))
        ((Settings.ofFile file).toOption.getD current)
  | send {past : Course} {current : Settings} (h : Reloaded first past current) (time : Instant)
      (l : Line) (x : l.Value) (hl : l ≠ .parameters) : Reloaded first (past.send time l x) current
  | leave {past : Course} {current : Settings} (h : Reloaded first past current) (time : Instant)
      (l : Line) (hl : l ≠ .parameters) : Reloaded first (past.leave time l) current
  | aside {past : Course} {current : Settings} (h : Reloaded first past current)
      (use : Bus → Bus) (keeps : ∀ b l, (use b).channel? l = b.channel? l) :
      Reloaded first (past.aside use keeps) current
  | cycle {past : Course} {current : Settings} (h : Reloaded first past current) (now : Instant) :
      Reloaded first (past.cycle now) current

variable {first current : Settings} {c : Course}

theorem bus_reload (hsender : c.bus.parameters.hasSender = true) (time : Instant) (r : Reload) :
    (c.reload time r).bus = r.carry c.bus := by
  cases r with
  | error f => rfl
  | ok s => simp [reload, bus, Bus.step, Bus.update, Latest.step, hsender, Reload.carry,
      Bus.sendParameters]

theorem Reloaded.known (h : Reloaded first c current) :
    ∃ ch, c.bus.channel? .parameters = some ch ∧ ch.hasSender = true ∧
      ch.poll?.getD c.history.inEffect = current.parameters := by
  induction h with
  | start => exact ⟨_, rfl, rfl, rfl⟩
  | @reload past current _ time file ih =>
    obtain ⟨ch, hch, hsender, hknown⟩ := ih
    cases Settings.ofFile file with
    | error f => exact ⟨ch, hch, hsender, hknown⟩
    | ok s =>
      obtain ⟨hreader, hpassed⟩ := sound_channel hch
      have hpoll : (ch.step (.send s.parameters)).poll? = some s.parameters := by
        rw [Latest.step, if_pos hsender]
        exact ch.poll?_send _ hreader hsender hpassed
      refine ⟨ch.step (.send s.parameters), ?_, ?_, ?_⟩
      · exact (channel?_send_self past time .parameters _).trans (congrArg _ hch)
      · exact (Latest.hasSender_step _ _).mpr ⟨hsender, by simp⟩
      · rw [hpoll]
        rfl
  | @send past _ _ time l x hl ih =>
    obtain ⟨ch, hch, hknown⟩ := ih
    exact ⟨ch, (channel?_send_of_ne past time x hl).trans hch, hknown⟩
  | @leave past _ _ time l hl ih =>
    obtain ⟨ch, hch, hknown⟩ := ih
    exact ⟨ch, (channel?_leave_of_ne past time hl).trans hch, hknown⟩
  | aside _ use keeps ih =>
    obtain ⟨ch, hch, hknown⟩ := ih
    exact ⟨ch, (keeps _ _).trans hch, hknown⟩
  | @cycle past _ _ now ih =>
    obtain ⟨ch, hch, hsender, hknown⟩ := ih
    refine ⟨ch.polled, ?_, ?_, ?_⟩
    · rw [channel?_cycle, Bus.movesOn_polls _ (by simp), hch]
      rfl
    · exact (Latest.hasSender_step ch .poll).mpr ⟨hsender, by simp⟩
    · rw [Latest.poll?_polled, ← hknown]
      obtain rfl := Option.some.inj hch
      rfl

theorem Reloaded.inEffect_cycle (h : Reloaded first c current) (now : Instant) :
    (c.cycle now).history.inEffect = current.parameters := by
  obtain ⟨ch, hch, -, hknown⟩ := h.known
  obtain rfl := Option.some.inj hch
  exact hknown

theorem Reloaded.accepted (h : Reloaded first c current) (hfirst : first.violations = []) :
    current.violations = [] := by
  induction h with
  | start => exact hfirst
  | reload _ time file ih =>
    cases hfile : Settings.ofFile file with
    | error f => exact ih
    | ok s => exact Settings.violations_of_ofFile hfile
  | send _ _ _ _ _ ih => exact ih
  | leave _ _ _ _ ih => exact ih
  | aside _ _ _ ih => exact ih
  | cycle _ _ ih => exact ih

/-- After any reloads a running gamepad's interval is below the timeout in effect exactly if it is
below that of the file accepted last. -/
theorem interval_lt_timeout_iff {w : Surroundings} {path : String} {station : Station}
    (hopen : (Station.openAt w path).result = .ok station) {c : Course} {current : Settings}
    (hcourse : Reloaded station.settings c current) (now : Instant) {d : Gamepad.Device}
    {deadzone : Float32} {intervalMs : Nat} {hasSwitches : Bool}
    (hmem : .gamepad d deadzone intervalMs hasSwitches ∈ station.feeders) :
    let timeout := (c.cycle now).history.inEffect.lossTimeout
    (Span.ofMillis intervalMs < timeout ↔ intervalMs < current.arbitration.lossTimeoutMs) ∧
    (current = station.settings → Span.ofMillis intervalMs < timeout) ∧
    ((∃ s ∈ current.sources, s.kind = .joystick ∧ intervalMs ≤ s.republishIntervalMs) →
      Span.ofMillis intervalMs < timeout) := by
  intro timeout
  have hiff : Span.ofMillis intervalMs < timeout ↔
      intervalMs < current.arbitration.lossTimeoutMs := by
    have htimeout : timeout = .ofMillis current.arbitration.lossTimeoutMs :=
      congrArg Parameters.lossTimeout (hcourse.inEffect_cycle now)
    rw [htimeout, Span.lt_def]
    exact Nat.mul_lt_mul_right (by decide)
  obtain ⟨hread, hfeeders⟩ := Station.source_of_openAt hopen
  have hfirst := Settings.violations_of_ofFile hread
  refine ⟨hiff, fun hcurrent => hiff.mpr ?_, fun ⟨s, hs, hkind, hle⟩ => hiff.mpr ?_⟩
  · rw [hfeeders] at hmem
    obtain ⟨s, hs, hkind, rfl⟩ := Feeder.source_of_startFrom hmem
    rw [hcurrent]
    exact (Settings.interval_of_accepted hfirst (List.mem_of_mem_take hs) hkind).2
  · have hinterval := Settings.interval_of_accepted (hcourse.accepted hfirst) hs hkind
    exact hle.trans_lt hinterval.2

/-- One gamepad that repeats itself every 100 ms; the timeout is 500 ms. -/
def slowStick : Surroundings :=
  { devices := { listed := .ok [{ path := "/dev/input/event0" }] }
    read := fun _ =>
      .ok "[[sources]]\nkind = \"joystick\"\nrepublish_interval_ms = 100\n".toUTF8.toList }

theorem open_slowStick :
    ∃ station, (Station.openAt slowStick "").result = .ok station ∧
      .gamepad { path := "/dev/input/event0" } 0.05 100 true ∈ station.feeders := by
  have hopen : (Station.openAt slowStick "").result.toOption.map (·.feeders) =
      some [.gamepad { path := "/dev/input/event0" } 0.05 100 true] := by decide +kernel
  obtain ⟨station, hstation, hfeeders⟩ := Option.map_eq_some_iff.mp hopen
  exact ⟨station, ok_of_toOption hstation, hfeeders ▸ List.mem_singleton_self _⟩

def shortTimeout : Except IoFault (List UInt8) :=
  .ok "[arbitration]\nloss_timeout_ms = 50\n".toUTF8.toList

theorem reload_shortTimeout {first : Settings} {past : Course} (h : Reloaded first past first) :
    Reloaded first (past.reload .zero (Settings.ofFile shortTimeout))
      { arbitration := { lossTimeoutMs := 50 } } := by
  have hfile : Settings.ofFile shortTimeout = .ok { arbitration := { lossTimeoutMs := 50 } } :=
    ok_of_toOption (by decide +kernel)
  have hreload := h.reload .zero shortTimeout
  rw [hfile] at hreload ⊢
  exact hreload

/-- The gamepad is fast enough until a file with a shorter timeout is read. -/
theorem interval_lt_timeout_iff_slowStick :
    ∃ station, (Station.openAt slowStick "").result = .ok station ∧
      .gamepad { path := "/dev/input/event0" } 0.05 100 true ∈ station.feeders ∧
      ∃ c current, Reloaded station.settings c station.settings ∧
        Reloaded station.settings (c.reload .zero (Settings.ofFile shortTimeout)) current ∧
        Span.ofMillis 100 < (c.cycle .zero).history.inEffect.lossTimeout ∧
        ¬Span.ofMillis 100 < ((c.reload .zero (Settings.ofFile shortTimeout)).cycle
          .zero).history.inEffect.lossTimeout := by
  obtain ⟨station, hopen, hmem⟩ := open_slowStick
  have hstart : Reloaded station.settings _ station.settings := .start
  have hreload := reload_shortTimeout hstart
  refine ⟨station, hopen, hmem, _, _, hstart, hreload, ?_, fun h => ?_⟩
  · exact (interval_lt_timeout_iff hopen hstart .zero hmem).2.1 rfl
  · exact absurd ((interval_lt_timeout_iff hopen hreload .zero hmem).1.mp h) (by decide)

theorem interval_not_always_lt_timeout :
    ¬∀ (w : Surroundings) (path : String) (station : Station) (c : Course) (current : Settings)
      (now : Instant) (d : Gamepad.Device) (deadzone : Float32) (intervalMs : Nat)
      (hasSwitches : Bool), (Station.openAt w path).result = .ok station →
      Reloaded station.settings c current →
      .gamepad d deadzone intervalMs hasSwitches ∈ station.feeders →
      Span.ofMillis intervalMs < (c.cycle now).history.inEffect.lossTimeout := by
  intro h
  obtain ⟨station, hopen, hmem⟩ := open_slowStick
  have hstart : Reloaded station.settings _ station.settings := .start
  have hreload := reload_shortTimeout hstart
  have hlt := h _ _ _ _ _ .zero _ _ _ _ hopen hreload hmem
  rw [hreload.inEffect_cycle] at hlt
  exact absurd hlt (by decide)

end Course

end StickArbiter
