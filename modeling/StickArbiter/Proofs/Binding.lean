import StickArbiter.Proofs.Accepted
import StickArbiter.Proofs.SwitchChanges
import StickArbiter.Proofs.Traffic

/-!
# Sources and their slots

The sources of accepted settings are started in order, each on the slot of its place, until one
cannot be opened. The first gamepad gives the switches.
-/

namespace StickArbiter

namespace Feeder

/-! ## One source -/

section

variable (w : Surroundings) (s : SourceSettings)

/-- Whether a feeder is what a source opens to. -/
inductive Opens : Feeder → Prop
  | gamepad {d : Gamepad.Device} (hasSwitches : Bool) (hkind : s.kind = .joystick)
      (hdevice : (w.devices.openDevice s.devicePath).result = .ok d)
      (hstream : d.streamFault = none) :
      Opens (.gamepad d s.deadzone s.republishIntervalMs hasSwitches)
  | replay {bytes : List UInt8} {r : Recording} (hkind : s.kind = .replay)
      (hread : w.read s.path = .ok bytes) (hrecording : Recording.ofBytes bytes = .ok r) :
      Opens (.replay r)

inductive Refuses : Fault → Prop
  | device {f : Gamepad.Fault} (hkind : s.kind = .joystick)
      (hdevice : (w.devices.openDevice s.devicePath).result = .error f) : Refuses (.gamepad f)
  | stream {d : Gamepad.Device} {f : IoFault} (hkind : s.kind = .joystick)
      (hdevice : (w.devices.openDevice s.devicePath).result = .ok d)
      (hstream : d.streamFault = some f) : Refuses (.gamepad (.notStreamed d.path f))
  | file {f : IoFault} (hkind : s.kind = .replay) (hread : w.read s.path = .error f) :
      Refuses (.io f)
  | recording {bytes : List UInt8} {f : Fault} (hkind : s.kind = .replay)
      (hread : w.read s.path = .ok bytes) (hrecording : Recording.ofBytes bytes = .error f) :
      Refuses f

/-- A start of a source alone, which gives switches or does not. -/
def IsStart (gives : Bool) (st : Startup) : Prop :=
  (∃ f, Refuses w s f ∧ st.started = [] ∧ st.fault = some f) ∨
    ∃ feeder, Opens w s feeder ∧ feeder.givesSwitches = gives ∧
      st.started = [feeder] ∧ st.fault = none

end

variable {w : Surroundings} {s : SourceSettings}

theorem Refuses.not_opens {f : Fault} (h : Refuses w s f) (feeder : Feeder) :
    ¬ Opens w s feeder := by
  intro hopens
  cases h <;> cases hopens <;> simp_all

theorem isStart_startGamepad (slot : Nat) (hasSwitches : Bool) (hkind : s.kind = .joystick) :
    IsStart w s hasSwitches (startGamepad w slot s hasSwitches) := by
  unfold startGamepad
  dsimp only
  cases hdevice : (w.devices.openDevice s.devicePath).result with
  | error f => exact .inl ⟨_, .device hkind hdevice, rfl, rfl⟩
  | ok d =>
    unfold Gamepad.Device.checkStream
    cases hstream : d.streamFault with
    | some f =>
      simp only [hstream]
      exact .inl ⟨_, .stream hkind hdevice hstream, rfl, rfl⟩
    | none =>
      simp only [hstream]
      exact .inr ⟨_, .gamepad hasSwitches hkind hdevice hstream, rfl, rfl, rfl⟩

theorem isStart_startReplay (slot : Nat) (hkind : s.kind = .replay) :
    IsStart w s false (startReplay w slot s) := by
  unfold startReplay
  cases hread : w.read s.path with
  | error f => exact .inl ⟨_, .file hkind hread, rfl, rfl⟩
  | ok bytes =>
    dsimp only
    cases hrecording : Recording.ofBytes bytes with
    | error f => exact .inl ⟨_, .recording hkind hread hrecording, rfl, rfl⟩
    | ok r => exact .inr ⟨_, .replay hkind hread hrecording, rfl, rfl, rfl⟩

/-! ## Sources in a row -/

/-- A start and, if it succeeds, the one that comes after it. -/
def followedBy (first others : Startup) : Startup :=
  match first.fault with
  | some _ => first
  | none =>
    { others with started := first.started ++ others.started, log := first.log ++ others.log }

variable (w s) in
theorem exists_startFrom_cons (slot : Nat) (hasSwitches : Bool) (rest : List SourceSettings) :
    ∃ first, IsStart w s (hasSwitches && s.kind = .joystick) first ∧
      startFrom w slot hasSwitches (s :: rest) =
        followedBy first (startFrom w (slot + 1) (hasSwitches && s.kind ≠ .joystick) rest) := by
  cases hkind : s.kind with
  | joystick =>
    refine ⟨startGamepad w slot s hasSwitches, ?_, by simp only [startFrom, hkind]; rfl⟩
    simpa using isStart_startGamepad slot hasSwitches hkind
  | replay =>
    refine ⟨startReplay w slot s, ?_, by simp only [startFrom, hkind]; rfl⟩
    simpa using isStart_startReplay slot hkind

variable (w s) in
theorem startFrom_cons (slot : Nat) (hasSwitches : Bool) (rest : List SourceSettings) :
    let st := startFrom w slot hasSwitches (s :: rest)
    (∃ f, Refuses w s f ∧ st.started = [] ∧ st.fault = some f) ∨
      ∃ feeder, Opens w s feeder ∧
        feeder.givesSwitches = (hasSwitches && s.kind = .joystick) ∧
        let others := startFrom w (slot + 1) (hasSwitches && s.kind ≠ .joystick) rest
        st.started = feeder :: others.started ∧ st.fault = others.fault := by
  intro st
  obtain ⟨first, hstart, hst⟩ := exists_startFrom_cons w s slot hasSwitches rest
  unfold st
  rw [hst, followedBy]
  obtain ⟨f, hf, hstarted, hfault⟩ | ⟨feeder, hopens, hgives, hstarted, hfault⟩ := hstart
  · refine .inl ⟨f, hf, ?_⟩
    rw [hfault]
    exact ⟨hstarted, hfault⟩
  · refine .inr ⟨feeder, hopens, hgives, ?_⟩
    rw [hfault, hstarted]
    exact ⟨rfl, rfl⟩

theorem getElem?_started {slot : Nat} {hasSwitches : Bool} {sources : List SourceSettings} {i : Nat}
    {feeder : Feeder} (h : (startFrom w slot hasSwitches sources).started[i]? = some feeder) :
    ∃ source, sources[i]? = some source ∧ Opens w source feeder ∧
      (feeder.givesSwitches = true ↔ hasSwitches = true ∧ source.kind = .joystick ∧
        ∀ earlier ∈ sources.take i, earlier.kind ≠ .joystick) := by
  -- After the first gamepad there are no switches to give, so `hasSwitches` is generalised too.
  induction sources generalizing slot hasSwitches i with
  | nil => cases h
  | cons s rest ih =>
    obtain ⟨f, -, hstarted, -⟩ | ⟨first, hopens, hgives, hstarted, -⟩ :=
      startFrom_cons w s slot hasSwitches rest
    · rw [hstarted] at h
      cases h
    · rw [hstarted] at h
      cases i with
      | zero =>
        cases h
        exact ⟨s, rfl, hopens, by simp [hgives]⟩
      | succ i =>
        obtain ⟨source, hsource, hopens, hgives⟩ := ih h
        refine ⟨source, hsource, hopens, hgives.trans ?_⟩
        rw [List.take_succ_cons, List.forall_mem_cons, Bool.and_eq_true, decide_eq_true_eq]
        exact ⟨fun ⟨⟨hfirst, hs⟩, hkind, hrest⟩ => ⟨hfirst, hkind, hs, hrest⟩,
          fun ⟨hfirst, hkind, hs, hrest⟩ => ⟨⟨hfirst, hs⟩, hkind, hrest⟩⟩

theorem startFrom_ends (slot : Nat) (hasSwitches : Bool) (sources : List SourceSettings) :
    let st := startFrom w slot hasSwitches sources
    (st.fault = none ∧ st.started.length = sources.length) ∨
      ∃ f source, st.fault = some f ∧ sources[st.started.length]? = some source ∧
        Refuses w source f := by
  induction sources generalizing slot hasSwitches with
  | nil => exact .inl ⟨rfl, rfl⟩
  | cons s rest ih =>
    intro st
    obtain ⟨f, hf, hstarted, hfault⟩ | ⟨feeder, -, -, hstarted, hfault⟩ :=
      startFrom_cons w s slot hasSwitches rest
    · exact .inr ⟨f, s, hfault, by rw [hstarted]; rfl, hf⟩
    · rw [hfault, hstarted]
      refine (ih (slot + 1) _).imp (fun ⟨hnone, hlength⟩ => ⟨hnone, ?_⟩) id
      rw [List.length_cons, hlength, List.length_cons]

/-! ## What a feeder does to the bus -/

theorem switches_of_reading (clock : Nat → Instant) {p : Gamepad.Publisher}
    (h : p.hasSwitches = false) (xs : List (Timed Gamepad.Taken)) :
    ∀ e ∈ (Gamepad.Reading.of clock p xs).emissions, e.what.switches = none := by
  induction xs generalizing p with
  | nil =>
    intro e he
    cases he
  | cons x xs ih =>
    rw [Gamepad.Reading.of]
    rcases x with ⟨time, i | f⟩
    · have hfirst := Gamepad.Publisher.switches_emits_eq_none h (clock time) i
      dsimp only
      split
      next => exact List.forall_mem_cons.mpr ⟨hfirst, ih ((p.hasSwitches_after [i]).trans h)⟩
      next => exact List.forall_mem_singleton.mpr hfirst
    · intro e he
      cases he

def samples (clock : Nat → Instant) (deliveries : Deliveries) (stop : Nat) :
    Feeder → List (Timed Sample)
  | .gamepad d deadzone intervalMs hasSwitches =>
    (reading clock deliveries stop d deadzone intervalMs hasSwitches).samples
  | .replay r => (r.play { clock := clock }).sent

/-- Sends all its samples on a slot's channel and touches no other but that of the switches. -/
structure Owns (f : Feeder) (slot : Nat) (clock : Nat → Instant) (deliveries : Deliveries)
    (stop : Nat) : Prop where
  sends : ∀ x ∈ f.samples clock deliveries stop, ∃ y ∈ f.stimuli clock deliveries stop slot,
    y.time = x.time ∧ ∀ b : Bus, (y.what b).channel? (.input slot) =
      (b.channel? (.input slot)).map (·.send (some x.what))
  others : ∀ y ∈ f.stimuli clock deliveries stop slot, ∀ (b : Bus) (l : Line),
    l ≠ .input slot → (l = .switches → f.givesSwitches = false) →
      (y.what b).channel? l = b.channel? l

/-- Does on its slot what its source asks for. -/
structure WorksAs (f : Feeder) (w : Surroundings) (s : SourceSettings) (slot : Nat) : Prop where
  gamepad : s.kind = .joystick → ∃ d, (w.devices.openDevice s.devicePath).result = .ok d ∧
    ∀ clock deliveries stop,
      let r := Gamepad.Reading.of clock { deadzone := s.deadzone, hasSwitches := f.givesSwitches }
        (Gamepad.Rhythm.timeline ⟨s.republishIntervalMs, stop⟩
          (Gamepad.handedOn [] (deliveries d.path)))
      f.samples clock deliveries stop = r.samples ∧
        f.stimuli clock deliveries stop slot =
          r.emissions.map (fun e => ⟨e.time, emit slot e.what⟩) ++
            (r.ending.map fun e => Timed.mk e.time (leave slot f.givesSwitches)).toList
  replay : s.kind = .replay → ∃ bytes r, w.read s.path = .ok bytes ∧
    Recording.ofBytes bytes = .ok r ∧
    ∀ clock deliveries stop, f.samples clock deliveries stop = (r.play { clock := clock }).sent

theorem Opens.worksAs {f : Feeder} (h : Opens w s f) (slot : Nat) : f.WorksAs w s slot := by
  cases h with
  | gamepad hasSwitches hkind hdevice hstream =>
    refine ⟨fun _ => ⟨_, hdevice, fun _ _ _ => ⟨rfl, rfl⟩⟩, fun hreplay => ?_⟩
    cases hkind.symm.trans hreplay
  | replay hkind hread hrecording =>
    refine ⟨fun hjoystick => ?_, fun _ => ⟨_, _, hread, hrecording, fun _ _ _ => rfl⟩⟩
    cases hkind.symm.trans hjoystick

theorem channel?_sendSwitches (b : Bus) (x : Option Switches) {l : Line} (h : l ≠ .switches) :
    (b.sendSwitches x).channel? l = b.channel? l := by
  cases l with
  | input slot => rfl
  | switches => exact absurd rfl h
  | parameters => rfl

theorem channel?_emit_self (slot : Nat) {e : Gamepad.Emission} {x : Sample}
    (h : e.sample = some x) (b : Bus) :
    (emit slot e b).channel? (.input slot) =
      (b.channel? (.input slot)).map (·.send (some x)) := by
  unfold emit
  rw [h]
  refine (Bus.channel?_update_self _ (.input slot) _).trans ?_
  cases e.switches with
  | none => rfl
  | some s => rfl

theorem channel?_emit_other {slot : Nat} {e : Gamepad.Emission} {l : Line}
    (hslot : l ≠ .input slot) (hswitches : l = .switches → e.switches = none) (b : Bus) :
    (emit slot e b).channel? l = b.channel? l := by
  have hinput (b : Bus) (x : Option Sample) : (b.sendInput slot x).channel? l = b.channel? l :=
    b.channel?_update_of_ne (k := .input slot) _ hslot.symm
  unfold emit
  cases hsent : e.switches with
  | none =>
    cases e.sample with
    | none => rfl
    | some x => exact hinput b _
  | some s =>
    have hl : l ≠ .switches := fun hl => by cases (hswitches hl).symm.trans hsent
    cases e.sample with
    | none => exact channel?_sendSwitches b _ hl
    | some x => exact (hinput _ _).trans (channel?_sendSwitches b _ hl)

theorem channel?_leave_other {slot : Nat} {gives : Bool} {l : Line} (hslot : l ≠ .input slot)
    (hswitches : l = .switches → gives = false) (b : Bus) :
    (leave slot gives b).channel? l = b.channel? l := by
  have hinput (b : Bus) : (b.updateInput slot (·.closeSender)).channel? l = b.channel? l :=
    b.channel?_update_of_ne (k := .input slot) _ hslot.symm
  unfold leave
  cases gives with
  | false => exact hinput b
  | true =>
    have hl : Line.switches ≠ l := fun hl => by cases hswitches hl.symm
    exact (Bus.channel?_update_of_ne _ (k := .switches) (·.closeSender) hl).trans (hinput b)

theorem owns (f : Feeder) (slot : Nat) (clock : Nat → Instant) (deliveries : Deliveries)
    (stop : Nat) : f.Owns slot clock deliveries stop := by
  cases f with
  | gamepad d deadzone intervalMs hasSwitches =>
    constructor
    · intro x hx
      obtain ⟨e, he, hsample⟩ := List.mem_filterMap.mp hx
      obtain ⟨s, hs, rfl⟩ := Option.map_eq_some_iff.mp hsample
      exact ⟨⟨e.time, emit slot e.what⟩, List.mem_append_left _ (List.mem_map_of_mem he), rfl,
        channel?_emit_self slot hs⟩
    · intro y hy b l hslot hswitches
      rcases List.mem_append.mp hy with hy | hy
      · obtain ⟨e, he, rfl⟩ := List.mem_map.mp hy
        refine channel?_emit_other hslot (fun hl => ?_) b
        exact switches_of_reading clock (hswitches hl) _ e he
      · obtain ⟨e, -, rfl⟩ := Option.map_eq_some_iff.mp (Option.mem_toList.mp hy)
        exact channel?_leave_other hslot hswitches b
  | replay r =>
    constructor
    · intro x hx
      exact ⟨_, List.mem_map_of_mem hx, rfl, fun b => b.channel?_update_self (.input slot) _⟩
    · intro y hy b l hslot _
      obtain ⟨x, -, rfl⟩ := List.mem_map.mp hy
      exact b.channel?_update_of_ne (k := .input slot) _ hslot.symm

theorem mem_allStimuli_iff (clock : Nat → Instant) (deliveries : Deliveries) (stop : Nat)
    (feeders : List Feeder) (y : Stimulus) :
    y ∈ allStimuli clock deliveries stop feeders ↔ ∃ (slot : Nat) (feeder : Feeder),
      feeders[slot]? = some feeder ∧ y ∈ feeder.stimuli clock deliveries stop slot := by
  unfold allStimuli
  simp only [Timeline.mem_foldr_merge, List.mem_mapIdx, List.getElem?_eq_some_iff]
  constructor
  · rintro ⟨_, ⟨slot, hslot, rfl⟩, hy⟩
    exact ⟨slot, _, ⟨hslot, rfl⟩, hy⟩
  · rintro ⟨slot, _, ⟨hslot, rfl⟩, hy⟩
    exact ⟨_, ⟨slot, hslot, rfl⟩, hy⟩

end Feeder

namespace Bus

theorem hasSender_fedBy {count slot : Nat} (hslot : slot < count) (p : Parameters)
    (feeders : List Feeder) :
    ∃ c, ((ofCount count p).fedBy feeders).channel? (.input slot) = some c ∧
      (c.hasSender = true ↔ slot < feeders.length) := by
  have hchannel : ((ofCount count p).fedBy feeders).channel? (.input slot) =
      some (if slot < feeders.length then .holding none else (Latest.holding none).closeSender) :=
    List.getElem?_mapIdx.trans (by rw [ofCount, List.getElem?_replicate_of_lt hslot]; rfl)
  refine ⟨_, hchannel, ?_⟩
  split
  next h => exact iff_of_true rfl h
  next h => exact iff_of_false Bool.false_ne_true h

theorem hasSender_switches_fedBy (count : Nat) (p : Parameters) (feeders : List Feeder) :
    ((ofCount count p).fedBy feeders).switches.hasSender = true ↔
      ∃ feeder ∈ feeders, feeder.givesSwitches = true := by
  rw [← List.any_eq_true]
  unfold fedBy
  cases feeders.any Feeder.givesSwitches with
  | false => exact iff_of_false Bool.false_ne_true Bool.false_ne_true
  | true => exact iff_of_true rfl rfl

end Bus

namespace Settings

/-- All sources of accepted settings are started, or all before the first one that cannot be opened.
Each works on the slot of its place alone, the first gamepad gives the switches, and the senders not
taken are closed. -/
theorem sources_bind {text : String} {s : Settings} (h : ofText text = .ok s) (w : Surroundings)
    (p : Parameters) :
    let slots := s.arbitration.slotCount
    let startup := Feeder.startAll w slots s.sources
    let bus := (Bus.ofCount slots p).fedBy startup.started
    ((startup.fault = none ∧ startup.started.length = s.sources.length) ∨
      ∃ f source, startup.fault = some f ∧ s.sources[startup.started.length]? = some source ∧
        Feeder.Refuses w source f ∧ ∀ feeder, ¬ Feeder.Opens w source feeder) ∧
    (∀ slot feeder, startup.started[slot]? = some feeder →
      slot < slots ∧ ∃ source, s.sources[slot]? = some source ∧ Feeder.Opens w source feeder ∧
        (source.kind = .joystick → 0 < source.republishIntervalMs) ∧
        (feeder.givesSwitches = true ↔ source.kind = .joystick ∧
          ∀ earlier ∈ s.sources.take slot, earlier.kind ≠ .joystick) ∧
        feeder.WorksAs w source slot ∧
        ∀ clock deliveries stop, feeder.Owns slot clock deliveries stop) ∧
    (∀ clock deliveries stop y, y ∈ Feeder.allStimuli clock deliveries stop startup.started ↔
      ∃ (slot : Nat) (feeder : Feeder), startup.started[slot]? = some feeder ∧
        y ∈ feeder.stimuli clock deliveries stop slot) ∧
    (∀ slot < slots, ∃ c, bus.channel? (.input slot) = some c ∧
      (c.hasSender = true ↔ slot < startup.started.length)) ∧
    (bus.switches.hasSender = true ↔
      ∃ feeder ∈ startup.started, feeder.givesSwitches = true) := by
  intro slots startup bus
  have haccepted := violations_of_ofText h
  have hslots : s.sources.length ≤ slots := slotCount_of_accepted haccepted
  have hall : startup = Feeder.startFrom w 0 true s.sources := by
    unfold startup Feeder.startAll
    rw [List.take_of_length_le hslots]
  refine ⟨?_, fun slot feeder hfeeder => ?_, fun clock deliveries stop y =>
    Feeder.mem_allStimuli_iff clock deliveries stop _ y, fun slot hslot =>
    Bus.hasSender_fedBy hslot p _, Bus.hasSender_switches_fedBy slots p _⟩
  · rw [hall]
    refine (Feeder.startFrom_ends 0 true s.sources).imp_right ?_
    rintro ⟨f, source, hfault, hsource, hrefuses⟩
    exact ⟨f, source, hfault, hsource, hrefuses, hrefuses.not_opens⟩
  · rw [hall] at hfeeder
    obtain ⟨source, hsource, hopens, hgives⟩ := Feeder.getElem?_started hfeeder
    obtain ⟨hlt, -⟩ := List.getElem?_eq_some_iff.mp hsource
    refine ⟨hlt.trans_le hslots, source, hsource, hopens, fun hkind => ?_, ?_, hopens.worksAs slot,
      feeder.owns slot⟩
    · exact (interval_of_accepted haccepted (List.mem_of_getElem? hsource) hkind).1
    · exact hgives.trans (and_iff_right rfl)

/-- A replay, a gamepad that is found, and one whose device is missing. -/
def oneMissing : Settings :=
  { sources :=
      [{ kind := .replay, path := "p" }, { kind := .joystick },
        { kind := .joystick, devicePath := "q" }] }

def oneMissingText : String :=
  "[[sources]]\nkind = \"replay\"\npath = \"p\"\n[[sources]]\nkind = \"joystick\"\n" ++
    "[[sources]]\nkind = \"joystick\"\ndevice_path = \"q\"\n"

theorem ofText_oneMissing : ofText oneMissingText = .ok oneMissing :=
  ok_of_toOption (by decide +kernel)

def onePad : Surroundings :=
  { devices := { listed := .ok [{ path := "/dev/input/event0" }] }, read := fun _ => .ok [] }

theorem startAll_oneMissing :
    (Feeder.startAll onePad 3 oneMissing.sources).started =
      [.replay ⟨[]⟩, .gamepad { path := "/dev/input/event0" } 0.05 20 true] ∧
    (Feeder.startAll onePad 3 oneMissing.sources).fault =
      some (.gamepad (.notOpened "q" .noEntry)) := by
  decide +kernel

theorem sources_bind_oneMissing :
    ofText oneMissingText = .ok oneMissing ∧
    let startup := Feeder.startAll onePad 3 oneMissing.sources
    let bus := (Bus.ofCount 3 {}).fedBy startup.started
    (∃ f source, startup.fault = some f ∧ oneMissing.sources[2]? = some source ∧
      Feeder.Refuses onePad source f) ∧
    (∃ feeder, startup.started[1]? = some feeder ∧
      Feeder.Opens onePad { kind := .joystick } feeder ∧ feeder.givesSwitches = true) ∧
    (∃ c, bus.channel? (.input 1) = some c ∧ c.hasSender = true) ∧
    (∃ c, bus.channel? (.input 2) = some c ∧ ¬ c.hasSender = true) ∧
    bus.switches.hasSender = true := by
  refine ⟨ofText_oneMissing, ?_⟩
  intro startup bus
  obtain ⟨hstarted, hfault⟩ := startAll_oneMissing
  obtain ⟨hends, hbinds, -, hinputs, hswitches⟩ := sources_bind ofText_oneMissing onePad {}
  have hfeeder : startup.started[1]? =
      some (.gamepad { path := "/dev/input/event0" } 0.05 20 true) := by
    unfold startup
    rw [hstarted]
    rfl
  have hlength : startup.started.length = 2 := congrArg List.length hstarted
  refine ⟨?_, ?_, ?_, ?_, ?_⟩
  · obtain ⟨hnone, -⟩ | ⟨f, source, hf, hsource, hrefuses, -⟩ := hends
    · cases hfault.symm.trans hnone
    · refine ⟨f, source, hf, ?_, hrefuses⟩
      rw [← hlength]
      exact hsource
  · obtain ⟨-, source, hsource, hopens, -⟩ := hbinds 1 _ hfeeder
    cases hsource
    exact ⟨_, hfeeder, hopens, rfl⟩
  · obtain ⟨c, hc, hsender⟩ := hinputs 1 (by decide)
    exact ⟨c, hc, hsender.mpr (hlength ▸ by decide)⟩
  · obtain ⟨c, hc, hsender⟩ := hinputs 2 (by decide)
    exact ⟨c, hc, fun hopen => absurd (hlength ▸ hsender.mp hopen) (by decide)⟩
  · exact hswitches.mpr ⟨_, List.mem_of_getElem? hfeeder, rfl⟩

end Settings

end StickArbiter
