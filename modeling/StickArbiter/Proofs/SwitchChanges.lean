import Mathlib.Data.List.Chain
import StickArbiter.Proofs.Emissions
import StickArbiter.Time.Timeline

/-!
# Switches follow the buttons

A publisher sends switches with each report whose buttons are others than those of the report
before.
-/

namespace StickArbiter.Gamepad

/-! ## The last report -/

/-- Whether the last report of some turns came right after `before`. -/
def LastReport (past before : List Turn) : Prop :=
  ∃ report between, past = before ++ report :: between ∧ report.isReport = true ∧
    ∀ t ∈ between, t.isReport = false

theorem lastReport_self (past : List Turn) {t : Turn} (h : t.isReport = true) :
    LastReport (past ++ [t]) past := ⟨t, [], rfl, h, by simp⟩

theorem LastReport.concat {past before : List Turn} (h : LastReport past before) {t : Turn}
    (ht : t.isReport = false) : LastReport (past ++ [t]) before := by
  obtain ⟨report, between, rfl, hreport, hbetween⟩ := h
  refine ⟨report, between ++ [t], by simp, hreport, ?_⟩
  rw [List.forall_mem_append, List.forall_mem_singleton]
  exact ⟨hbetween, ht⟩

theorem unreported_or_lastReport (past : List Turn) :
    (∀ t ∈ past, t.isReport = false) ∨ ∃ before, LastReport past before := by
  induction past using List.reverseRecOn with
  | nil => exact .inl nofun
  | append_singleton past t ih =>
    cases ht : t.isReport with
    | true => exact .inr ⟨past, lastReport_self past ht⟩
    | false =>
      rcases ih with hnone | ⟨before, hlast⟩
      · rw [List.forall_mem_append, List.forall_mem_singleton]
        exact .inl ⟨hnone, ht⟩
      · exact .inr ⟨before, hlast.concat ht⟩

/-! ## The buttons a publisher remembers -/

namespace Publisher

theorem reported_next (p : Publisher) (t : Turn) :
    (p.next t.input).reported = if t.isReport then some p.sticks.buttons else p.reported := by
  cases ht : t.isReport with
  | true =>
    rw [(Turn.input_eq_report_iff t).mpr ht]
    rfl
  | false =>
    cases t with
    | event e => rw [Turn.input, next_of_ne_report p (Turn.signal_ne_report ht)]; rfl
    | republish => rfl
    | drop => rfl

theorem reported_of_unreported (p : Publisher) {turns : List Turn}
    (h : ∀ t ∈ turns, t.isReport = false) :
    (p.after (turns.map Turn.input)).reported = p.reported := by
  induction turns using List.reverseRecOn with
  | nil => rfl
  | append_singleton turns t ih =>
    rw [List.forall_mem_append, List.forall_mem_singleton] at h
    rw [List.map_append, List.map_singleton, after_concat, reported_next, h.2, ih h.1]
    rfl

variable (deadzone : Float32) (hasSwitches : Bool) {past before : List Turn}

theorem reported_told_of_lastReport (h : LastReport past before) :
    (told deadzone hasSwitches past).reported = some (Sticks.told before).buttons := by
  obtain ⟨report, between, rfl, hreport, hbetween⟩ := h
  rw [List.append_cons, told_append, reported_of_unreported _ hbetween, told_append]
  exact (reported_next _ report).trans (by rw [hreport, sticks_told]; rfl)

theorem reported_told_ne_iff (past : List Turn) (buttons : Bool × Bool) :
    (told deadzone hasSwitches past).reported ≠ some buttons ↔
      (∀ t ∈ past, t.isReport = false) ∨
        ∃ before, LastReport past before ∧ (Sticks.told before).buttons ≠ buttons := by
  constructor
  · intro hne
    refine (unreported_or_lastReport past).imp_right fun ⟨before, hlast⟩ => ⟨before, hlast, ?_⟩
    rwa [reported_told_of_lastReport deadzone hasSwitches hlast, Ne, Option.some.injEq] at hne
  · rintro (hnone | ⟨before, hlast, hne⟩)
    · exact (reported_of_unreported _ hnone).trans_ne (Option.some_ne_none _).symm
    · rwa [reported_told_of_lastReport deadzone hasSwitches hlast, Ne, Option.some.injEq]

/-! ## What a run emits -/

/-- What comes of some inputs, each at its time. The clock shows an instant at each millisecond. -/
def emissions (clock : Nat → Instant) (p : Publisher) :
    List (Timed Input) → List (Timed Emission)
  | [] => []
  | x :: xs => ⟨x.time, p.emits (clock x.time) x.what⟩ :: emissions clock (p.next x.what) xs

theorem emissions_append (clock : Nat → Instant) (p : Publisher) (xs ys : List (Timed Input)) :
    p.emissions clock (xs ++ ys) =
      p.emissions clock xs ++ (p.after (xs.map Timed.what)).emissions clock ys := by
  induction xs generalizing p with
  | nil => rfl
  | cons x xs ih =>
    rw [List.cons_append, emissions, emissions, ih, List.map_cons]
    rfl

theorem length_emissions (clock : Nat → Instant) (p : Publisher) (xs : List (Timed Input)) :
    (p.emissions clock xs).length = xs.length := by
  induction xs generalizing p with
  | nil => rfl
  | cons x xs ih => rw [emissions, List.length_cons, ih, List.length_cons]

theorem samples_of_hasSwitches (clock : Nat → Instant) (p : Publisher) (b : Bool)
    (xs : List (Timed Input)) :
    (emissions clock { p with hasSwitches := b } xs).map (Timed.map Emission.sample) =
      (p.emissions clock xs).map (Timed.map Emission.sample) := by
  induction xs generalizing p with
  | nil => rfl
  | cons x xs ih =>
    obtain ⟨hnext, hsample⟩ :
        ({ p with hasSwitches := b } : Publisher).next x.what =
          { p.next x.what with hasSwitches := b } ∧
        (({ p with hasSwitches := b } : Publisher).emits (clock x.time) x.what).sample =
          (p.emits (clock x.time) x.what).sample := by
      rcases x with ⟨time, s | _ | _⟩
      · cases s <;> exact ⟨rfl, rfl⟩
      · exact ⟨rfl, rfl⟩
      · exact ⟨rfl, rfl⟩
    rw [emissions, emissions, List.map_cons, List.map_cons, hnext, ih, Timed.map, Timed.map,
      hsample]

theorem hasSwitches_after (p : Publisher) (inputs : List Input) :
    (p.after inputs).hasSwitches = p.hasSwitches := by
  induction inputs using List.reverseRecOn with
  | nil => rfl
  | append_singleton inputs i ih =>
    rw [after_concat, ← ih]
    cases i with
    | signal s => cases s <;> rfl
    | tick => rfl
    | close => rfl

theorem switches_emits_iff (p : Publisher) (now : Instant) (i : Input) (y : Switches) :
    (p.emits now i).switches = some y ↔ p.hasSwitches = true ∧ i = .signal .report ∧
      p.reported ≠ some p.sticks.buttons ∧ p.sticks.switches now = y := by
  cases i with
  | signal s => cases s <;> simp [emits, newSwitches, and_assoc]
  | tick => simp [emits]
  | close => simp [emits]

theorem switches_emits_eq_none {p : Publisher} (h : p.hasSwitches = false) (now : Instant)
    (i : Input) : (p.emits now i).switches = none := by
  rw [Option.eq_none_iff_forall_ne_some]
  exact fun y hy => Bool.false_ne_true (h.symm.trans ((p.switches_emits_iff now i y).mp hy).1)

end Publisher

/-! ## The switches of a run -/

/-- The switches that show two buttons and nothing else. -/
def Switches.showing (now : Instant) (arm kill : Bool) : Switches :=
  { timestamp := now, modeSlot := 0
    arm := if arm then .on else .off, kill := if kill then .on else .off
    returnHome := .unassigned, loiter := .unassigned, offboard := .unassigned
    gear := .unassigned }

theorem Switches.showing_differ {a b : Bool × Bool} (h : a ≠ b) (now later : Instant) :
    (showing now a.1 a.2).arm ≠ (showing later b.1 b.2).arm ∨
      (showing now a.1 a.2).kill ≠ (showing later b.1 b.2).kill := by
  obtain ⟨a₁, a₂⟩ := a
  obtain ⟨b₁, b₂⟩ := b
  revert h
  cases a₁ <;> cases b₁ <;> cases a₂ <;> cases b₂ <;> simp [showing]

def switchesSent (es : List (Timed Emission)) : List Switches := es.filterMap (·.what.switches)

namespace Publisher

def answers (clock : Nat → Instant) (deadzone : Float32) (hasSwitches : Bool)
    (run : List (Timed Turn)) : List (Timed Emission) :=
  (fresh deadzone hasSwitches).emissions clock (run.map (Timed.map Turn.input))

variable (clock : Nat → Instant) (deadzone : Float32) (hasSwitches : Bool)

theorem answers_append (run rest : List (Timed Turn)) :
    answers clock deadzone hasSwitches (run ++ rest) =
      answers clock deadzone hasSwitches run ++
        (told deadzone hasSwitches (run.map Timed.what)).emissions clock
          (rest.map (Timed.map Turn.input)) := by
  unfold answers told
  rw [List.map_append, emissions_append, List.map_map, List.map_map]
  rfl

theorem answers_getElem? (past : List (Timed Turn)) (x : Timed Turn) (rest : List (Timed Turn)) :
    (answers clock deadzone hasSwitches (past ++ x :: rest))[past.length]? =
      some ⟨x.time, (told deadzone hasSwitches (past.map Timed.what)).emits (clock x.time)
        x.what.input⟩ := by
  have hlength : (answers clock deadzone hasSwitches past).length = past.length := by
    unfold answers
    rw [length_emissions, List.length_map]
  rw [answers_append, ← hlength, List.getElem?_append_right (Nat.le_refl _), Nat.sub_self]
  rfl

theorem switches_told_iff (past : List Turn) (now : Instant) (t : Turn) (y : Switches) :
    ((told deadzone hasSwitches past).emits now t.input).switches = some y ↔
      hasSwitches = true ∧ t.isReport = true ∧
      ((∀ u ∈ past, u.isReport = false) ∨
        ∃ before, LastReport past before ∧
          (Sticks.told before).buttons ≠ (Sticks.told past).buttons) ∧
      y = Switches.showing now (Sticks.told past).leftShoulder (Sticks.told past).home := by
  have hswitches : (told deadzone hasSwitches past).hasSwitches = hasSwitches :=
    hasSwitches_after _ _
  rw [switches_emits_iff, hswitches, sticks_told, Turn.input_eq_report_iff, reported_told_ne_iff,
    eq_comm (b := y)]
  rfl

theorem switchesSent_concat (run : List (Timed Turn)) (x : Timed Turn) :
    switchesSent (answers clock deadzone hasSwitches (run ++ [x])) =
      switchesSent (answers clock deadzone hasSwitches run) ++
        ((told deadzone hasSwitches (run.map Timed.what)).emits (clock x.time)
          x.what.input).switches.toList := by
  unfold switchesSent
  rw [answers_append, List.filterMap_append]
  exact congrArg _ (List.filterMap_cons ..)

theorem reported_told_concat (past : List Turn) (t : Turn) :
    (told deadzone hasSwitches (past ++ [t])).reported =
      if t.isReport then some (Sticks.told past).buttons
      else (told deadzone hasSwitches past).reported := by
  rw [told_append, ← sticks_told deadzone hasSwitches]
  exact reported_next _ t

theorem remembered_of_silent_report {past : List Turn} {now : Instant} {t : Turn}
    (hreport : t.isReport = true)
    (hsilent : ((told deadzone true past).emits now t.input).switches = none) :
    (told deadzone true past).reported = some (Sticks.told past).buttons := by
  by_contra hne
  have hsent := (switches_told_iff deadzone true past now t _).mpr
    ⟨rfl, hreport, (reported_told_ne_iff deadzone true past _).mp hne, rfl⟩
  cases hsilent.symm.trans hsent

theorem getLast?_switchesSent (run : List (Timed Turn)) :
    Option.Rel (fun y buttons => ∃ now, y = Switches.showing now buttons.1 buttons.2)
      (switchesSent (answers clock deadzone true run)).getLast?
      (told deadzone true (run.map Timed.what)).reported := by
  induction run using List.reverseRecOn with
  | nil => exact .none
  | append_singleton run x ih =>
    rw [switchesSent_concat, List.map_append, List.map_singleton, reported_told_concat]
    cases hsent : ((told deadzone true (run.map Timed.what)).emits (clock x.time)
        x.what.input).switches with
    | some y =>
      obtain ⟨-, hreport, -, rfl⟩ := (switches_told_iff deadzone true _ _ _ _).mp hsent
      rw [hreport, Option.toList_some, List.getLast?_concat]
      exact .some ⟨_, rfl⟩
    | none =>
      rw [Option.toList_none, List.append_nil]
      split
      next hreport =>
        rw [remembered_of_silent_report deadzone hreport hsent] at ih
        exact ih
      next => exact ih

theorem switchesSent_silent (run : List (Timed Turn)) :
    switchesSent (answers clock deadzone false run) = [] := by
  induction run using List.reverseRecOn with
  | nil => rfl
  | append_singleton run x ih =>
    rw [switchesSent_concat, ih, List.nil_append, Option.toList_eq_nil_iff]
    exact switches_emits_eq_none (hasSwitches_after _ _) _ _

theorem isChain_switchesSent (run : List (Timed Turn)) :
    (switchesSent (answers clock deadzone true run)).IsChain
      (fun a b => a.arm ≠ b.arm ∨ a.kill ≠ b.kill) := by
  induction run using List.reverseRecOn with
  | nil => exact .nil
  | append_singleton run x ih =>
    rw [switchesSent_concat]
    cases hsent : ((told deadzone true (run.map Timed.what)).emits (clock x.time)
        x.what.input).switches with
    | none => rwa [Option.toList_none, List.append_nil]
    | some y =>
      obtain ⟨-, -, hnews, rfl⟩ := (switches_told_iff deadzone true _ _ _ _).mp hsent
      refine List.isChain_append.mpr ⟨ih, .singleton _, fun a ha b hb => ?_⟩
      obtain rfl : _ = b := Option.mem_some.mp hb
      -- The switches before it show what is remembered, and these buttons are others.
      have hlast := getLast?_switchesSent clock deadzone run
      rw [Option.mem_def.mp ha] at hlast
      generalize hreported : (told deadzone true (run.map Timed.what)).reported = known at hlast
      cases hlast with
      | some hshows =>
        obtain ⟨earlier, rfl⟩ := hshows
        rw [← reported_told_ne_iff deadzone true, hreported, Ne, Option.some.injEq] at hnews
        exact Switches.showing_differ hnews earlier (clock x.time)

/-- Switches are sent with a report exactly if it is the first or its buttons differ from those of
the report before. The last ones show the last report's buttons. -/
theorem switches_follow_buttons (run : List (Timed Turn)) :
    let out := answers clock deadzone true run
    let silent := answers clock deadzone false run
    (∀ past x rest, run = past ++ x :: rest →
      ∃ e, out[past.length]? = some e ∧ ∀ y, e.what.switches = some y ↔
        x.what.isReport = true ∧
        ((∀ t ∈ past.map Timed.what, t.isReport = false) ∨
          ∃ before, LastReport (past.map Timed.what) before ∧
            (Sticks.told before).buttons ≠ (Sticks.told (past.map Timed.what)).buttons) ∧
        y = Switches.showing (clock x.time) (Sticks.told (past.map Timed.what)).leftShoulder
          (Sticks.told (past.map Timed.what)).home) ∧
    (switchesSent out).IsChain (fun a b => a.arm ≠ b.arm ∨ a.kill ≠ b.kill) ∧
    (∀ before, LastReport (run.map Timed.what) before → ∃ now, (switchesSent out).getLast? =
      some (Switches.showing now (Sticks.told before).leftShoulder (Sticks.told before).home)) ∧
    switchesSent silent = [] ∧
    silent.map (Timed.map Emission.sample) = out.map (Timed.map Emission.sample) := by
  intro out silent
  refine ⟨?_, isChain_switchesSent clock deadzone run, fun before hlast => ?_, ?_, ?_⟩
  · rintro past x rest rfl
    refine ⟨_, answers_getElem? clock deadzone true past x rest, fun y => ?_⟩
    exact (switches_told_iff deadzone true _ _ _ y).trans (and_iff_right rfl)
  · have hshown := getLast?_switchesSent clock deadzone run
    rw [reported_told_of_lastReport deadzone true hlast] at hshown
    generalize (switchesSent (answers clock deadzone true run)).getLast? = last at hshown
    cases hshown with
    | some hshows =>
      obtain ⟨now, rfl⟩ := hshows
      exact ⟨now, rfl⟩
  · exact switchesSent_silent clock deadzone run
  · exact samples_of_hasSwitches clock (fresh deadzone true) false _

end Publisher

end StickArbiter.Gamepad
