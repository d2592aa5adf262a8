import Mathlib.Data.List.Induction
import StickArbiter.Proofs.Reloads

/-!
# Parameters that change under way

A file that is read again counts as a whole or not at all, from the next cycle on, and the arbiter
forgets nothing by it.
-/

namespace StickArbiter

/-- What the arbiter remembers is the same. -/
structure Arbiter.Retains (a b : Arbiter) : Prop where
  slots : b.selector.slots = a.selector.slots
  setpoint : b.setpoint = a.setpoint
  armConfirmed : b.gestures.arm.confirmed = a.gestures.arm.confirmed
  armPending : b.gestures.arm.pendingSince = a.gestures.arm.pendingSince
  disarmConfirmed : b.gestures.disarm.confirmed = a.gestures.disarm.confirmed
  disarmPending : b.gestures.disarm.pendingSince = a.gestures.disarm.pendingSince
  takeover : b.takeover = a.takeover
  phase : b.phase = a.phase
  lastSelected : b.lastSelected = a.lastSelected
  pollInterval : b.pollInterval = a.pollInterval

theorem Arbiter.retains_begin (a : Arbiter) (f : Feed) : a.Retains (a.begin f) := by
  unfold begin
  cases f.parameters <;> exact ⟨rfl, rfl, rfl, rfl, rfl, rfl, rfl, rfl, rfl, rfl⟩

theorem Latest.hasSender_send {α : Type} (ch : Latest α) (a : α) :
    (ch.send a).hasSender = ch.hasSender := by
  unfold send
  split <;> rfl

namespace Bus

theorem step_retuned (b : Bus) (ch : Latest Parameters) {l : Line} (m : Latest.Move l.Value)
    (hl : l ≠ .parameters) :
    { b with parameters := ch }.step ⟨l, m⟩ = { b.step ⟨l, m⟩ with parameters := ch } := by
  cases l with
  | input slot => rfl
  | switches => rfl
  | parameters => exact absurd rfl hl

theorem carry_retuned (b : Bus) (ch : Latest Parameters) (calls : List Call) :
    calls.foldl carry { b with parameters := ch } =
      { calls.foldl carry b with parameters := ch } := by
  induction calls generalizing b with
  | nil => rfl
  | cons call calls ih =>
    rw [List.foldl_cons, List.foldl_cons, ← ih]
    congr 1
    unfold carry
    cases call with
    | command x => dsimp only; split <;> rfl
    | publish sp => rfl

end Bus

namespace Course

inductive Event
  | reload (time : Instant) (file : Except IoFault (List UInt8))
  | send (time : Instant) (l : Line) (x : l.Value) (hl : l ≠ .parameters)
  | leave (time : Instant) (l : Line) (hl : l ≠ .parameters)
  | aside (use : Bus → Bus) (keeps : ∀ b l, (use b).channel? l = b.channel? l)
    (blind : ∀ b ch, use { b with parameters := ch } = { use b with parameters := ch })
  | cycle (now : Instant)

namespace Event

/-- The settings in a file that was read, if they were accepted. -/
def loaded? : Event → Option Settings
  | reload _ file => (Settings.ofFile file).toOption
  | _ => none

def isCycle : Event → Bool
  | cycle _ => true
  | _ => false

def isReload : Event → Bool
  | reload _ _ => true
  | _ => false

end Event

def step (c : Course) : Event → Course
  | .reload time file => c.reload time (Settings.ofFile file)
  | .send time l x _ => c.send time l x
  | .leave time l _ => c.leave time l
  | .aside use keeps _ => c.aside use keeps
  | .cycle now => c.cycle now

def after (c : Course) (es : List Event) : Course := es.foldl step c

def launch (s : Settings) : Course :=
  start s.arbitration.slotCount s.parameters s.arbitration.slotCount s.parameters s.pollInterval

def lastLoaded (first : Settings) (es : List Event) : Settings :=
  (es.filterMap Event.loaded?).getLast?.getD first

/-- Whether another file is accepted before the next cycle. -/
def overtaken (rest : List Event) : Bool :=
  (rest.takeWhile (!·.isCycle)).any (·.loaded?.isSome)

/-- Whether reading a file makes no difference: it is rejected or overtaken. -/
def idle (e : Event) (rest : List Event) : Bool :=
  e.isReload && (e.loaded?.isNone || overtaken rest)

/-- Without the files that make no difference. -/
def thinned : List Event → List Event
  | [] => []
  | e :: rest => if idle e rest then thinned rest else e :: thinned rest

theorem after_append (c : Course) (es es' : List Event) :
    c.after (es ++ es') = (c.after es).after es' := List.foldl_append

theorem after_cons (c : Course) (e : Event) (es : List Event) :
    c.after (e :: es) = (c.step e).after es := rfl

theorem lastLoaded_concat (first : Settings) (es : List Event) (e : Event) :
    lastLoaded first (es ++ [e]) = e.loaded?.getD (lastLoaded first es) := by
  unfold lastLoaded
  rw [List.filterMap_append]
  cases h : e.loaded? <;> simp [h]

theorem reloaded_after (first : Settings) (es : List Event) :
    Reloaded first ((launch first).after es) (lastLoaded first es) := by
  induction es using List.reverseRecOn with
  | nil => exact .start
  | append_singleton es e ih =>
    rw [after_append, lastLoaded_concat]
    cases e with
    | reload time file => exact ih.reload time file
    | send time l x hl => exact ih.send time l x hl
    | leave time l hl => exact ih.leave time l hl
    | aside use keeps _ => exact ih.aside use keeps
    | cycle now => exact ih.cycle now

/-! ## Files that make no difference -/

/-- The same happened to both, except on the parameters' line. -/
structure Alike (c c' : Course) : Prop where
  history : c'.history = c.history
  bus : c'.bus = { c.bus with parameters := c'.bus.parameters }
  sender : c.bus.parameters.hasSender = true
  sender' : c'.bus.parameters.hasSender = true

variable {c c' : Course}

theorem pollParameters?_reload (hsender : c.bus.parameters.hasSender = true) (time : Instant)
    (s : Settings) : (c.reload time (.ok s)).bus.pollParameters? = some s.parameters := by
  obtain ⟨hreader, hpassed⟩ := sound_channel (show c.bus.channel? .parameters = some _ from rfl)
  rw [bus_reload hsender]
  exact Latest.poll?_send _ _ hreader hsender hpassed

theorem parameters_reload (hsender : c.bus.parameters.hasSender = true) (time : Instant)
    (s : Settings) :
    (c.reload time (.ok s)).bus = { c.bus with parameters := c.bus.parameters.send s.parameters } :=
  bus_reload hsender time (.ok s)

theorem Alike.reload_left (h : c.Alike c') (time : Instant) (s : Settings) :
    (c.reload time (.ok s)).Alike c' := by
  have hbus := parameters_reload h.sender time s
  refine ⟨h.history, ?_, ?_, h.sender'⟩
  · rw [hbus]
    exact h.bus
  · rw [hbus, Latest.hasSender_send]
    exact h.sender

theorem Alike.reload (h : c.Alike c') (time : Instant) (s : Settings) :
    (c.reload time (.ok s)).Alike (c'.reload time (.ok s)) := by
  have hbus := parameters_reload h.sender' time s
  refine ⟨h.history, ?_, (h.reload_left time s).sender, ?_⟩
  · rw [hbus, parameters_reload h.sender time s]
    nth_rewrite 1 [h.bus]
    rfl
  · rw [hbus, Latest.hasSender_send]
    exact h.sender'

theorem bus_cycle (c : Course) (now : Instant) :
    (c.cycle now).bus =
      (c.history.arbiter.cycle (c.bus.feed now) c.bus.downlink).calls.foldl Bus.carry
        (c.bus.polled c.history.arbiter.selector.slotCount) := rfl

theorem parameters_cycle (c : Course) (now : Instant) :
    (c.cycle now).bus.parameters = c.bus.parameters.polled := by
  rw [bus_cycle]
  exact Option.some.inj (Bus.channel?_foldl_carry _ _ .parameters)

theorem Alike.cycle (h : c.Alike c')
    (hpoll : c'.bus.pollParameters? = c.bus.pollParameters?) (now : Instant) :
    (c.cycle now).Alike (c'.cycle now) := by
  have hfeed : c'.bus.feed now = c.bus.feed now := by
    unfold Bus.feed
    rw [hpoll, h.bus]
    rfl
  have hdownlink : c'.bus.downlink = c.bus.downlink := by
    rw [h.bus]
    rfl
  refine ⟨?_, ?_, ?_, ?_⟩
  · change c'.history.cycle _ _ = c.history.cycle _ _
    rw [h.history, hfeed, hdownlink]
  · rw [parameters_cycle, bus_cycle, bus_cycle, h.history, hfeed, hdownlink, ← Bus.carry_retuned]
    nth_rewrite 1 [h.bus]
    rfl
  · rw [parameters_cycle]
    exact (Latest.hasSender_step _ .poll).mpr ⟨h.sender, by simp⟩
  · rw [parameters_cycle]
    exact (Latest.hasSender_step _ .poll).mpr ⟨h.sender', by simp⟩

theorem parameters_step (c : Course) {e : Event} (hreload : e.isReload = false)
    (hcycle : e.isCycle = false) : (c.step e).bus.parameters = c.bus.parameters := by
  apply Option.some.inj
  cases e with
  | reload time file => cases hreload
  | send time l x hl => exact channel?_send_of_ne c time x hl
  | leave time l hl => exact channel?_leave_of_ne c time hl
  | aside use keeps blind => exact keeps c.bus .parameters
  | cycle now => cases hcycle

theorem Alike.step (h : c.Alike c') {e : Event} (hreload : e.isReload = false)
    (hcycle : e.isCycle = false) : (c.step e).Alike (c'.step e) := by
  have hleft := c.parameters_step hreload hcycle
  have hright := c'.parameters_step hreload hcycle
  have hbus : (c'.step e).bus = { (c.step e).bus with parameters := c'.bus.parameters } := by
    cases e with
    | reload time file => cases hreload
    | send time l x hl =>
      refine Eq.trans ?_ (c.bus.step_retuned c'.bus.parameters _ hl)
      rw [← h.bus]
      rfl
    | leave time l hl =>
      refine Eq.trans ?_ (c.bus.step_retuned c'.bus.parameters _ hl)
      rw [← h.bus]
      rfl
    | aside use keeps blind =>
      refine Eq.trans ?_ (blind c.bus c'.bus.parameters)
      rw [← h.bus]
      rfl
    | cycle now => cases hcycle
  have hhistory : (c'.step e).history = (c.step e).history := by
    cases e with
    | reload time file => cases hreload
    | send time l x hl => exact h.history
    | leave time l hl => exact h.history
    | aside use keeps blind => exact h.history
    | cycle now => cases hcycle
  refine ⟨hhistory, ?_, ?_, ?_⟩
  · rw [hright]
    exact hbus
  · rw [hleft]
    exact h.sender
  · rw [hright]
    exact h.sender'

theorem overtaken_cons {e : Event} (h : e.isCycle = false) (rest : List Event) :
    overtaken (e :: rest) = (e.loaded?.isSome || overtaken rest) := by
  simp [overtaken, h]

/-- Courses that are alike and offer the same parameters, unless a file still to come replaces them.
-/
structure Meets (rest : List Event) (c c' : Course) : Prop extends Alike c c' where
  offered : overtaken rest = false → c'.bus.pollParameters? = c.bus.pollParameters?

variable {e : Event} {rest : List Event}

theorem step_of_accepted (c : Course) {time : Instant} {file : Except IoFault (List UInt8)}
    {s : Settings} (h : Settings.ofFile file = .ok s) :
    c.step (.reload time file) = c.reload time (.ok s) := congrArg (c.reload time) h

theorem step_of_rejected (c : Course) {time : Instant} {file : Except IoFault (List UInt8)}
    {f : Fault} (h : Settings.ofFile file = .error f) : c.step (.reload time file) = c :=
  congrArg (c.reload time) h

theorem Meets.step_idle (h : Meets (e :: rest) c c') (hidle : idle e rest = true) :
    Meets rest (c.step e) c' := by
  cases e with
  | reload time file =>
    cases hfile : Settings.ofFile file with
    | error f =>
      rw [step_of_rejected c hfile]
      refine ⟨h.toAlike, fun hover => h.offered ?_⟩
      rw [overtaken_cons rfl, hover, Event.loaded?, hfile]
      rfl
    | ok s =>
      have hover : overtaken rest = true := by
        simpa [idle, Event.isReload, Event.loaded?, hfile, Except.toOption] using hidle
      rw [step_of_accepted c hfile]
      refine ⟨h.toAlike.reload_left time s, fun hnone => ?_⟩
      rw [hover] at hnone
      cases hnone
  | send time l x hl => cases hidle
  | leave time l hl => cases hidle
  | aside use keeps blind => cases hidle
  | cycle now => cases hidle

theorem Meets.step_other (h : Meets (e :: rest) c c') (hreload : e.isReload = false)
    (hcycle : e.isCycle = false) : Meets rest (c.step e) (c'.step e) := by
  refine ⟨h.toAlike.step hreload hcycle, fun hover => ?_⟩
  have hloaded : e.loaded? = none := by
    cases e with
    | reload time file => cases hreload
    | _ => rfl
  unfold Bus.pollParameters?
  rw [parameters_step _ hreload hcycle, parameters_step _ hreload hcycle]
  refine h.offered ?_
  rw [overtaken_cons hcycle, hover, hloaded]
  rfl

theorem Meets.step (h : Meets (e :: rest) c c') (hidle : idle e rest = false) :
    Meets rest (c.step e) (c'.step e) := by
  cases e with
  | reload time file =>
    cases hfile : Settings.ofFile file with
    | error f => simp [idle, Event.isReload, Event.loaded?, hfile, Except.toOption] at hidle
    | ok s =>
      rw [step_of_accepted c hfile, step_of_accepted c' hfile]
      refine ⟨h.toAlike.reload time s, fun _ => ?_⟩
      rw [pollParameters?_reload h.sender, pollParameters?_reload h.sender']
  | send time l x hl => exact h.step_other rfl rfl
  | leave time l hl => exact h.step_other rfl rfl
  | aside use keeps blind => exact h.step_other rfl rfl
  | cycle now =>
    refine ⟨h.toAlike.cycle (h.offered rfl) now, fun _ => ?_⟩
    change (c'.cycle now).bus.parameters.poll? = (c.cycle now).bus.parameters.poll?
    rw [parameters_cycle, parameters_cycle, Latest.poll?_polled, Latest.poll?_polled]

theorem Meets.history_thinned {es : List Event} (h : Meets es c c') :
    (c'.after (thinned es)).history = (c.after es).history := by
  induction es generalizing c c' with
  | nil => exact h.history
  | cons e rest ih =>
    unfold thinned
    cases hidle : idle e rest with
    | true =>
      rw [if_pos rfl, after_cons]
      exact ih (h.step_idle hidle)
    | false =>
      rw [if_neg (by simp), after_cons, after_cons]
      exact ih (h.step hidle)

example :
    ((launch {}).after [.reload .zero shortTimeout, .reload .zero (.ok "[".toUTF8.toList),
      .cycle .zero]).history.arbiter.parameters = { lossTimeout := .ofMillis 50 } := by
  decide +kernel

end Course

end StickArbiter
