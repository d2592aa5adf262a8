import Mathlib.Data.List.DropRight
import StickArbiter.Gamepad.Publisher

/-!
# What a gamepad publishes

Each axis stands where its last event put it. A tick within an incomplete report publishes what has
come of that report.
-/

namespace StickArbiter.Gamepad

/-! ## Raw values -/

theorem toInt_sub_middle_iff (raw : Int32) :
    (raw - 128).toInt = raw.toInt - 128 ↔ -2147483520 ≤ raw.toInt := by
  have hlow := raw.le_toInt
  have hhigh := raw.toInt_lt
  rw [Int32.toInt_sub, show (128 : Int32).toInt = 128 from rfl, Int.bmod_eq_emod]
  split <;> omega

theorem centred_of_le {raw : Int32} (h : -2147483520 ≤ raw.toInt) :
    centred raw = clamp (-1) 1 (Decimal.ofInt (raw.toInt - 128) / 127) := by
  rw [centred, (toInt_sub_middle_iff raw).mpr h]

/-- The lowest raw values wrap around and read like the highest ones. -/
theorem centred_of_lt {raw : Int32} (h : raw.toInt < -2147483520) : centred raw = 1 := by
  have hlowest : ∀ n : Nat, n < 128 → centred (Int32.ofInt (-2147483648 + n)) = 1 := by
    decide +kernel
  obtain ⟨n, hn⟩ := Int.le.dest raw.le_toInt
  have hraw : raw = Int32.ofInt (-2147483648 + n) := by
    rw [← Int32.ofInt_toInt raw, ← hn]
    rfl
  rw [hraw]
  apply hlowest
  omega

/-! ## Axis by axis -/

def Sticks.raw (s : Sticks) : Axis → Int32
  | .leftX => s.leftX
  | .leftY => s.leftY
  | .rightX => s.rightX
  | .rightY => s.rightY

def Axis.reading (deadzone : Float32) (raw : Int32) : Axis → Float32
  | .leftX => outsideDeadzone deadzone (centred raw)
  | .leftY => throttle raw
  | .rightX => outsideDeadzone deadzone (centred raw)
  | .rightY => outsideDeadzone deadzone (-(centred raw))

theorem Sticks.axes_eq (s : Sticks) (deadzone : Float32) :
    s.axes deadzone =
      { x := Axis.rightX.reading deadzone s.rightX, y := Axis.rightY.reading deadzone s.rightY
        z := Axis.leftY.reading deadzone s.leftY, r := Axis.leftX.reading deadzone s.leftX } := rfl

theorem Sticks.axes_eq_axes_iff (s t : Sticks) (deadzone : Float32) :
    s.axes deadzone = t.axes deadzone ↔
      ∀ a : Axis, a.reading deadzone (s.raw a) = a.reading deadzone (t.raw a) := by
  rw [axes_eq, axes_eq, Axes.mk.injEq]
  constructor
  · rintro ⟨hx, hy, hz, hr⟩ a
    cases a with
    | leftX => exact hr
    | leftY => exact hz
    | rightX => exact hx
    | rightY => exact hy
  · intro h
    exact ⟨h .rightX, h .rightY, h .leftY, h .leftX⟩

def Input.moves? (a : Axis) : Input → Option Int32
  | .signal (.axis b v) => if b = a then some v else none
  | _ => none

def lastMove? (a : Axis) (inputs : List Input) : Option Int32 :=
  (inputs.filterMap (Input.moves? a)).getLast?

theorem lastMove?_concat (a : Axis) (inputs : List Input) (i : Input) :
    lastMove? a (inputs ++ [i]) = (i.moves? a).or (lastMove? a inputs) := by
  rw [lastMove?, List.filterMap_append]
  cases h : i.moves? a <;> simp [h, lastMove?]

namespace Publisher

def fresh (deadzone : Float32) (hasSwitches : Bool) : Publisher :=
  { deadzone := deadzone, hasSwitches := hasSwitches }

theorem after_concat (p : Publisher) (inputs : List Input) (i : Input) :
    p.after (inputs ++ [i]) = (p.after inputs).next i := p.after_append inputs [i]

theorem raw_next (p : Publisher) (i : Input) (a : Axis) :
    (p.next i).sticks.raw a = (i.moves? a).getD (p.sticks.raw a) := by
  cases i with
  | tick => rfl
  | close => rfl
  | signal s =>
    cases s with
    | axis b v => cases a <;> cases b <;> rfl
    | button b pressed => cases a <;> cases b <;> rfl
    | report => rfl
    | other => rfl

theorem raw_after (p : Publisher) (inputs : List Input) (a : Axis) :
    (p.after inputs).sticks.raw a = (lastMove? a inputs).getD (p.sticks.raw a) := by
  induction inputs using List.reverseRecOn with
  | nil => rfl
  | append_singleton inputs i ih =>
    rw [after_concat, raw_next, ih, lastMove?_concat]
    cases i.moves? a <;> rfl

theorem deadzone_after (p : Publisher) (inputs : List Input) :
    (p.after inputs).deadzone = p.deadzone := by
  induction inputs using List.reverseRecOn with
  | nil => rfl
  | append_singleton inputs i ih =>
    rw [after_concat, ← ih]
    cases i with
    | signal s => cases s <;> rfl
    | tick => rfl
    | close => rfl

theorem hasReport_after (p : Publisher) (inputs : List Input) :
    (p.after inputs).hasReport = true ↔ p.hasReport = true ∨ .signal .report ∈ inputs := by
  induction inputs using List.reverseRecOn with
  | nil => simp [after]
  | append_singleton inputs i ih =>
    have hnext : ((p.after inputs).next i).hasReport = true ↔
        (p.after inputs).hasReport = true ∨ .signal .report = i := by
      cases i with
      | signal s => cases s <;> simp [next]
      | tick => simp [next]
      | close => simp [next]
    rw [after_concat, hnext, ih, List.mem_append, List.mem_singleton, or_assoc]

theorem isOpen_next {p : Publisher} {i : Input} (h : i ≠ .close) :
    (p.next i).isOpen = p.isOpen := by
  cases i with
  | signal s => cases s <;> rfl
  | tick => rfl
  | close => exact absurd rfl h

theorem isOpen_after (p : Publisher) (inputs : List Input) :
    (p.after inputs).isOpen = true ↔ p.isOpen = true ∧ .close ∉ inputs := by
  induction inputs using List.reverseRecOn with
  | nil => simp [after]
  | append_singleton inputs i ih =>
    rw [after_concat, List.mem_append, List.mem_singleton, not_or, ← and_assoc, ← ih]
    by_cases hclose : i = .close
    · subst hclose
      simp [next]
    · rw [isOpen_next hclose]
      simp [Ne.symm hclose]

/-- A sample goes with a report, and with a tick after a report, of the sticks as they stand. -/
theorem sample_emits_iff (p : Publisher) (now : Instant) (i : Input) (x : Sample) :
    (p.emits now i).sample = some x ↔
      p.isOpen = true ∧ (i = .signal .report ∨ i = .tick ∧ p.hasReport = true) ∧
        p.sample now = x := by
  cases i with
  | signal s => cases s <;> simp [emits, offer]
  | tick => cases h : p.hasReport <;> simp [emits, offer, h]
  | close => simp [emits]

theorem sticks_next_of_emits {p : Publisher} {now : Instant} {i : Input} {x : Sample}
    (h : (p.emits now i).sample = some x) : (p.next i).sticks = p.sticks := by
  rw [sample_emits_iff] at h
  rcases h.2.1 with rfl | ⟨rfl, -⟩ <;> rfl

end Publisher

/-! ## The last report -/

def uptoReport (inputs : List Input) : List Input := inputs.rdropWhile (· ≠ .signal .report)

def sinceReport (inputs : List Input) : List Input := inputs.rtakeWhile (· ≠ .signal .report)

theorem uptoReport_append_sinceReport (inputs : List Input) :
    uptoReport inputs ++ sinceReport inputs = inputs := by
  rw [uptoReport, sinceReport, List.rdropWhile, List.rtakeWhile, ← List.reverse_append,
    List.takeWhile_append_dropWhile, List.reverse_reverse]

theorem uptoReport_ne_nil {inputs : List Input} (h : .signal .report ∈ inputs) :
    uptoReport inputs ≠ [] := by
  rw [uptoReport, Ne, List.rdropWhile_eq_nil_iff]
  intro hall
  simpa using hall _ h

namespace Publisher

/-- The sticks as they stood at the last report. -/
def atReport (p : Publisher) (inputs : List Input) : Sticks := (p.after (uptoReport inputs)).sticks

theorem raw_after_eq_atReport (p : Publisher) (inputs : List Input) (a : Axis) :
    (p.after inputs).sticks.raw a =
      (lastMove? a (sinceReport inputs)).getD ((p.atReport inputs).raw a) := by
  have hsplit : (p.after inputs).sticks.raw a =
      ((p.after (uptoReport inputs)).after (sinceReport inputs)).sticks.raw a := by
    rw [← after_append, uptoReport_append_sinceReport]
  rw [hsplit, raw_after, atReport]

/-- A sample is published after a report only. It shows the axes of the last one exactly if no axis
was moved since to a value that reads otherwise. -/
theorem axes_eq_reported_iff (deadzone : Float32) (hasSwitches : Bool) (past : List Input)
    (i : Input) (now : Instant) (x : Sample)
    (h : (((fresh deadzone hasSwitches).after past).emits now i).sample = some x) :
    uptoReport (past ++ [i]) ≠ [] ∧
    (x.axes = ((fresh deadzone hasSwitches).atReport (past ++ [i])).axes deadzone ↔
      ∀ (a : Axis) (v : Int32), lastMove? a (sinceReport (past ++ [i])) = some v →
        a.reading deadzone v =
          a.reading deadzone (((fresh deadzone hasSwitches).atReport (past ++ [i])).raw a)) := by
  obtain ⟨-, hwhen, hx⟩ := (sample_emits_iff _ now i x).mp h
  constructor
  · apply uptoReport_ne_nil
    rcases hwhen with rfl | ⟨-, hreport⟩
    · simp
    · rcases (hasReport_after _ _).mp hreport with hfresh | hmem
      · cases hfresh
      · exact List.mem_append_left _ hmem
  · have hsticks : ((fresh deadzone hasSwitches).after (past ++ [i])).sticks =
        ((fresh deadzone hasSwitches).after past).sticks := by
      rw [after_concat]
      exact sticks_next_of_emits h
    have haxes : x.axes =
        ((fresh deadzone hasSwitches).after (past ++ [i])).sticks.axes deadzone := by
      rw [hsticks, ← hx, sample, deadzone_after]
      rfl
    rw [haxes, Sticks.axes_eq_axes_iff]
    refine forall_congr' fun a => ?_
    rw [raw_after_eq_atReport]
    cases lastMove? a (sinceReport (past ++ [i])) <;> simp

/-- The left stick has moved over, and the report that tells so is not complete. -/
def halfReport : List Input := [.signal .report, .signal (.axis .leftX 255)]

theorem axes_ne_reported_halfReport :
    ∃ x, (((fresh 0.05 true).after halfReport).emits .zero .tick).sample = some x ∧
      x.axes ≠ ((fresh 0.05 true).atReport (halfReport ++ [.tick])).axes 0.05 := by
  refine ⟨_, rfl, fun heq => ?_⟩
  have hsame :=
    (axes_eq_reported_iff 0.05 true halfReport .tick .zero _ rfl).2.mp heq .leftX 255 rfl
  revert hsame
  decide +kernel

/-- A tick publishes what a report has told of itself so far. -/
theorem axes_not_always_reported :
    ¬ ∀ (deadzone : Float32) (hasSwitches : Bool) (past : List Input) (i : Input) (now : Instant)
      (x : Sample), (((fresh deadzone hasSwitches).after past).emits now i).sample = some x →
      x.axes = ((fresh deadzone hasSwitches).atReport (past ++ [i])).axes deadzone := by
  intro h
  have haxes := congrArg Axes.r (h 0.05 true halfReport .tick .zero _ rfl)
  revert haxes
  decide +kernel

end Publisher

end StickArbiter.Gamepad
