import StickArbiter.Proofs.Reports

/-!
# What a publisher answers to every turn

It is told by the turns before: whether there was a report, whether the receiver is gone, and what
each control's last event said.
-/

namespace StickArbiter.Gamepad

/-! ## Events and controls -/

inductive Turn
  | event (e : Event)
  | republish
  | drop
deriving DecidableEq

namespace Turn

def input : Turn → Input
  | .event e => .signal e.signal
  | .republish => .tick
  | .drop => .close

def isReport : Turn → Bool
  | .event e => e.kind = 0 && e.code = 0
  | _ => false

theorem input_eq_report_iff (t : Turn) : t.input = .signal .report ↔ t.isReport = true := by
  cases t with
  | republish => simp [input, isReport]
  | drop => simp [input, isReport]
  | event e =>
    unfold input isReport Event.signal
    rw [Input.signal.injEq, Bool.and_eq_true, decide_eq_true_eq, decide_eq_true_eq]
    split
    next hkind => simp [hkind]
    next hkind => split <;> simp [hkind]
    next hkind => split <;> simp [hkind]
    next hkind _ _ => simp [show ¬e.kind = 0 from hkind]

theorem signal_ne_report {e : Event} (h : (Turn.event e).isReport = false) :
    e.signal ≠ .report := fun hreport =>
  Bool.false_ne_true (h.symm.trans ((input_eq_report_iff _).mp (congrArg Input.signal hreport)))

theorem input_eq_tick_iff (t : Turn) : t.input = .tick ↔ t = .republish := by
  cases t <;> simp [input]

theorem input_eq_close_iff (t : Turn) : t.input = .close ↔ t = .drop := by
  cases t <;> simp [input]

end Turn

inductive Control
  | axis (a : Axis)
  | button (b : Button)
deriving DecidableEq

def Axis.code : Axis → Nat
  | .leftX => 0
  | .leftY => 1
  | .rightX => 2
  | .rightY => 5

def Button.code : Button → Nat
  | .leftShoulder => 310
  | .home => 316

theorem Axis.ofCode?_eq_some_iff (code : Nat) (a : Axis) :
    Axis.ofCode? code = some a ↔ code = a.code := by
  unfold Axis.ofCode?
  split <;> cases a <;> simp_all [Axis.code]

theorem Button.ofCode?_eq_some_iff (code : Nat) (b : Button) :
    Button.ofCode? code = some b ↔ code = b.code := by
  unfold Button.ofCode?
  split <;> cases b <;> simp_all [Button.code]

def Control.kind : Control → Nat
  | .axis _ => 3
  | .button _ => 1

def Control.code : Control → Nat
  | .axis a => a.code
  | .button b => b.code

/-- The value that a turn reports of a control. -/
def Turn.value? (c : Control) : Turn → Option Int32
  | .event e => if e.kind = c.kind ∧ e.code = c.code then some e.value else none
  | _ => none

theorem Control.code_injective : Function.Injective Control.code := by
  intro c d h
  cases c with
  | axis a => cases d with
    | axis b => cases a <;> cases b <;> simp_all [Control.code, Axis.code]
    | button b => cases a <;> cases b <;> simp_all [Control.code, Axis.code, Button.code]
  | button a => cases d with
    | axis b => cases a <;> cases b <;> simp_all [Control.code, Axis.code, Button.code]
    | button b => cases a <;> cases b <;> simp_all [Control.code, Button.code]

theorem Turn.value?_of_code {e : Event} {c : Control} (hkind : e.kind = c.kind)
    (hcode : e.code = c.code) (d : Control) :
    Turn.value? d (.event e) = if d = c then some e.value else none := by
  have hsame : e.kind = d.kind ∧ e.code = d.code ↔ d = c := by
    constructor
    · rintro ⟨-, hd⟩
      exact Control.code_injective (hd.symm.trans hcode)
    · rintro rfl
      exact ⟨hkind, hcode⟩
  unfold Turn.value?
  simp only [hsame]

theorem Event.signal_cases (e : Event) :
    (∃ a, e.signal = .axis a e.value ∧
      ∀ c, Turn.value? c (.event e) = if c = .axis a then some e.value else none) ∨
    (∃ b, e.signal = .button b (e.value ≠ 0) ∧
      ∀ c, Turn.value? c (.event e) = if c = .button b then some e.value else none) ∨
    ((e.signal = .report ∨ e.signal = .other) ∧ ∀ c, Turn.value? c (.event e) = none) := by
  unfold Event.signal
  split
  next hkind =>
    refine .inr (.inr ⟨by split <;> simp, fun c => if_neg fun h => ?_⟩)
    rw [hkind] at h
    cases c <;> cases h.1
  next hkind =>
    cases hcode : Button.ofCode? e.code with
    | some b =>
      refine .inr (.inl ⟨b, rfl, Turn.value?_of_code hkind ?_⟩)
      exact (Button.ofCode?_eq_some_iff _ _).mp hcode
    | none =>
      refine .inr (.inr ⟨.inr rfl, fun c => if_neg fun h => ?_⟩)
      rw [hkind] at h
      cases c with
      | axis a => cases h.1
      | button b => cases hcode.symm.trans ((Button.ofCode?_eq_some_iff _ _).mpr h.2)
  next hkind =>
    cases hcode : Axis.ofCode? e.code with
    | some a =>
      refine .inl ⟨a, rfl, Turn.value?_of_code hkind ?_⟩
      exact (Axis.ofCode?_eq_some_iff _ _).mp hcode
    | none =>
      refine .inr (.inr ⟨.inr rfl, fun c => if_neg fun h => ?_⟩)
      rw [hkind] at h
      cases c with
      | axis a => cases hcode.symm.trans ((Axis.ofCode?_eq_some_iff _ _).mpr h.2)
      | button b => cases h.1
  next hbutton haxis =>
    refine .inr (.inr ⟨.inr rfl, fun c => if_neg fun h => ?_⟩)
    cases c with
    | axis a => exact haxis h.1
    | button b => exact hbutton h.1

/-! ## The sticks of a run -/

/-- What the last event of a control said. -/
def lastValue? (c : Control) (turns : List Turn) : Option Int32 :=
  (turns.filterMap (Turn.value? c)).getLast?

theorem lastValue?_append (c : Control) (xs ys : List Turn) :
    lastValue? c (xs ++ ys) = (lastValue? c ys).or (lastValue? c xs) := by
  unfold lastValue?
  rw [List.filterMap_append, List.getLast?_append]

theorem lastValue?_concat (c : Control) (turns : List Turn) (t : Turn) :
    lastValue? c (turns ++ [t]) = (t.value? c).or (lastValue? c turns) := by
  rw [lastValue?_append]
  cases h : t.value? c <;> simp [lastValue?, h]

/-- The sticks as the last event of each control told. -/
def Sticks.told (turns : List Turn) : Sticks :=
  let held (b : Button) : Bool := (lastValue? (.button b) turns).any (· ≠ 0)
  { leftX := (lastValue? (.axis .leftX) turns).getD 128
    leftY := (lastValue? (.axis .leftY) turns).getD 255
    rightX := (lastValue? (.axis .rightX) turns).getD 128
    rightY := (lastValue? (.axis .rightY) turns).getD 128
    leftShoulder := held .leftShoulder
    home := held .home }

namespace Sticks

theorem told_congr {xs ys : List Turn} (h : ∀ c, lastValue? c xs = lastValue? c ys) :
    told xs = told ys := by
  unfold told
  simp only [h]

theorem told_idle (turns : List Turn) {t : Turn} (h : ∀ c, t.value? c = none) :
    told (turns ++ [t]) = told turns :=
  told_congr fun c => by rw [lastValue?_concat, h, Option.none_or]

theorem told_event (turns : List Turn) (e : Event) :
    told (turns ++ [.event e]) = (told turns).apply e.signal := by
  obtain ⟨a, hsignal, hvalue⟩ | ⟨b, hsignal, hvalue⟩ | ⟨hsignal, hvalue⟩ := e.signal_cases
  · rw [hsignal]
    unfold told
    simp only [lastValue?_concat, hvalue]
    cases a <;> simp [apply, setAxis]
  · rw [hsignal]
    unfold told
    simp only [lastValue?_concat, hvalue]
    cases b <;> simp [apply, setButton]
  · rw [told_idle turns hvalue]
    rcases hsignal with hreport | hother
    · rw [hreport]
      rfl
    · rw [hother]
      rfl

end Sticks

/-! ## Answers -/

namespace Publisher

variable (deadzone : Float32) (hasSwitches : Bool) (past : List Turn)

def told : Publisher := (fresh deadzone hasSwitches).after (past.map Turn.input)

theorem told_append (turns : List Turn) :
    told deadzone hasSwitches (past ++ turns) =
      (told deadzone hasSwitches past).after (turns.map Turn.input) := by
  unfold told
  rw [List.map_append, after_append]

theorem sticks_next_signal (p : Publisher) (s : Signal) :
    (p.next (.signal s)).sticks = p.sticks.apply s := by
  cases s <;> rfl

theorem next_of_ne_report (p : Publisher) {s : Signal} (h : s ≠ .report) :
    p.next (.signal s) = { p with sticks := p.sticks.apply s } := if_neg h

theorem sticks_told : (told deadzone hasSwitches past).sticks = .told past := by
  induction past using List.reverseRecOn with
  | nil => rfl
  | append_singleton past t ih =>
    rw [told_append]
    cases t with
    | event e => exact (sticks_next_signal _ _).trans (by rw [ih, Sticks.told_event])
    | republish => exact ih.trans (Sticks.told_idle past fun _ => rfl).symm
    | drop => exact ih.trans (Sticks.told_idle past fun _ => rfl).symm

theorem isOpen_told : (told deadzone hasSwitches past).isOpen = true ↔ .drop ∉ past := by
  have hclose : Input.close ∈ past.map Turn.input ↔ .drop ∈ past := by
    simp [Turn.input_eq_close_iff]
  unfold told
  rw [isOpen_after, hclose]
  exact and_iff_right rfl

theorem hasReport_told :
    (told deadzone hasSwitches past).hasReport = true ↔ ∃ t ∈ past, t.isReport = true := by
  unfold told
  rw [hasReport_after]
  simp [fresh, Turn.input_eq_report_iff]

theorem goesOn_emits_iff (p : Publisher) (now : Instant) (i : Input) :
    (p.emits now i).goesOn = true ↔ p.isOpen = true ∨ (i ≠ .signal .report ∧ i ≠ .tick) := by
  cases i with
  | signal s => cases s <;> simp [emits]
  | tick => simp [emits]
  | close => simp [emits]

theorem report_of_switches {p : Publisher} {now : Instant} {i : Input}
    (h : (p.emits now i).switches ≠ none) : i = .signal .report := by
  cases i with
  | signal s =>
    cases s with
    | report => rfl
    | axis a v => exact absurd rfl h
    | button b pressed => exact absurd rfl h
    | other => exact absurd rfl h
  | tick => exact absurd rfl h
  | close => exact absurd rfl h

theorem after_of_unreported (p : Publisher) {turns : List Turn}
    (h : ∀ t ∈ turns, t.isReport = false ∧ t ≠ .drop) :
    p.after (turns.map Turn.input) =
      { p with sticks := (p.after (turns.map Turn.input)).sticks } := by
  induction turns using List.reverseRecOn with
  | nil => rfl
  | append_singleton turns t ih =>
    rw [List.forall_mem_append, List.forall_mem_singleton] at h
    rw [List.map_append, List.map_singleton, after_concat, ih h.1]
    cases t with
    | republish => rfl
    | drop => exact absurd rfl h.2.2
    | event e => rw [Turn.input, next_of_ne_report _ (Turn.signal_ne_report h.2.1)]

/-- The order of events on different controls between two reports is forgotten. -/
theorem told_reordered {xs ys : List Turn}
    (hxs : ∀ t ∈ xs, t.isReport = false ∧ t ≠ .drop)
    (hys : ∀ t ∈ ys, t.isReport = false ∧ t ≠ .drop)
    (h : ∀ c, xs.filterMap (Turn.value? c) = ys.filterMap (Turn.value? c)) :
    told deadzone hasSwitches (past ++ xs) = told deadzone hasSwitches (past ++ ys) := by
  have hsticks : (told deadzone hasSwitches (past ++ xs)).sticks =
      (told deadzone hasSwitches (past ++ ys)).sticks := by
    rw [sticks_told, sticks_told]
    refine Sticks.told_congr fun c => ?_
    rw [lastValue?_append, lastValue?_append]
    exact congrArg (fun values => values.getLast?.or (lastValue? c past)) (h c)
  rw [told_append, told_append] at hsticks ⊢
  rw [after_of_unreported _ hxs, after_of_unreported _ hys, hsticks]

/-- A sample goes with each report, and with each tick after the first, of the sticks as the last
events on them told. Switches go with reports alone. -/
theorem emits_told (t : Turn) (now : Instant) :
    let p := told deadzone hasSwitches past
    let x : Sample :=
      { axes := (Sticks.told past).axes deadzone, timestamp := now, source := .joystick
        valid := true }
    (∀ y, (p.emits now t.input).sample = some y ↔ .drop ∉ past ∧
      (t.isReport = true ∨ t = .republish ∧ ∃ u ∈ past, u.isReport = true) ∧ y = x) ∧
    ((p.emits now t.input).switches ≠ none → t.isReport = true) ∧
    ((p.emits now t.input).goesOn = true ↔
      .drop ∉ past ∨ t.isReport = false ∧ t ≠ .republish) ∧
    ∀ xs ys rest : List Turn,
      (∀ u ∈ xs, u.isReport = false ∧ u ≠ .drop) → (∀ u ∈ ys, u.isReport = false ∧ u ≠ .drop) →
      (∀ c, xs.filterMap (Turn.value? c) = ys.filterMap (Turn.value? c)) →
      (told deadzone hasSwitches (past ++ xs ++ rest)).emits now t.input =
        (told deadzone hasSwitches (past ++ ys ++ rest)).emits now t.input := by
  intro p x
  have hopen := isOpen_told deadzone hasSwitches past
  have hx : p.sample now = x := by
    have hdeadzone : p.deadzone = deadzone := deadzone_after _ _
    unfold sample
    rw [hdeadzone, sticks_told]
  refine ⟨fun y => ?_, fun h => ?_, ?_, ?_⟩
  · rw [sample_emits_iff, hopen, Turn.input_eq_report_iff, Turn.input_eq_tick_iff,
      hasReport_told, hx, eq_comm (a := x)]
  · exact t.input_eq_report_iff.mp (report_of_switches h)
  · rw [goesOn_emits_iff, hopen, Ne, Turn.input_eq_report_iff, Ne, Turn.input_eq_tick_iff,
      Bool.not_eq_true]
  · intro xs ys rest hxs hys h
    rw [told_append, told_reordered deadzone hasSwitches past hxs hys h, ← told_append]

end Publisher

end StickArbiter.Gamepad
