import Mathlib.Data.List.Nodup
import Mathlib.Data.Set.List
import Mathlib.Order.Bounds.Defs
import StickArbiter.Gamepad.Reading
import StickArbiter.Proofs.SwitchChanges

/-!
# The end of a reader

A reader ends at the first fault of its device, or at the first report or tick after its listener
has left.
-/

namespace StickArbiter.Gamepad

/-! ## Readings in two parts -/

namespace Publisher

variable (clock : Nat → Instant)

theorem mem_emissions_iff (p : Publisher) (xs : List (Timed Input)) (e : Timed Emission) :
    e ∈ p.emissions clock xs ↔ ∃ past i rest, xs = past ++ i :: rest ∧
      e = ⟨i.time, (p.after (past.map Timed.what)).emits (clock i.time) i.what⟩ := by
  constructor
  · intro h
    induction xs generalizing p with
    | nil => cases h
    | cons x xs ih =>
      rcases List.mem_cons.mp h with rfl | h
      · exact ⟨[], x, xs, rfl, rfl⟩
      · obtain ⟨past, i, rest, rfl, rfl⟩ := ih _ h
        exact ⟨x :: past, i, rest, rfl, rfl⟩
  · rintro ⟨past, i, rest, rfl, rfl⟩
    rw [emissions_append]
    exact List.mem_append_right _ List.mem_cons_self

theorem map_time_emissions (p : Publisher) (xs : List (Timed Input)) :
    (p.emissions clock xs).map Timed.time = xs.map Timed.time := by
  induction xs generalizing p with
  | nil => rfl
  | cons x xs ih => rw [emissions, List.map_cons, List.map_cons, ih]

theorem mem_answers_iff (deadzone : Float32) (hasSwitches : Bool) (run : List (Timed Turn))
    (e : Timed Emission) :
    e ∈ answers clock deadzone hasSwitches run ↔ ∃ past x rest, run = past ++ x :: rest ∧
      e = ⟨x.time, (told deadzone hasSwitches (past.map Timed.what)).emits (clock x.time)
        x.what.input⟩ := by
  unfold answers
  rw [mem_emissions_iff]
  constructor
  · rintro ⟨past, i, rest, hsplit, rfl⟩
    obtain ⟨before, others, rfl, rfl, hothers⟩ := List.map_eq_append_iff.mp hsplit
    obtain ⟨x, after, rfl, rfl, rfl⟩ := List.map_eq_cons_iff.mp hothers
    exact ⟨before, x, after, rfl, by rw [List.map_map]; unfold told; rw [List.map_map]; rfl⟩
  · rintro ⟨past, x, rest, rfl, rfl⟩
    refine ⟨past.map (Timed.map Turn.input), x.map Turn.input, rest.map (Timed.map Turn.input),
      by simp, ?_⟩
    unfold told
    rw [List.map_map, List.map_map]
    rfl

theorem map_time_answers (deadzone : Float32) (hasSwitches : Bool) (run : List (Timed Turn)) :
    (answers clock deadzone hasSwitches run).map Timed.time = run.map Timed.time := by
  unfold answers
  rw [map_time_emissions, List.map_map]
  rfl

end Publisher

theorem Reading.of_append (clock : Nat → Instant) (p : Publisher) {past : List (Timed Input)}
    (h : ∀ e ∈ p.emissions clock past, e.what.goesOn = true) (rest : List (Timed Taken)) :
    Reading.of clock p (past.map (Timed.map Taken.input) ++ rest) =
      let r := Reading.of clock (p.after (past.map Timed.what)) rest
      { r with emissions := p.emissions clock past ++ r.emissions } := by
  induction past generalizing p with
  | nil => rfl
  | cons x past ih =>
    rw [Publisher.emissions, List.forall_mem_cons] at h
    have hgoes : (p.emits (clock x.time) x.what).goesOn = true := h.1
    rw [List.map_cons, List.cons_append, Reading.of]
    simp only [Timed.map, hgoes, if_true]
    rw [ih _ h.2]
    rfl

/-! ## Scripts -/

/-- What a device answers to the reads of its events, one by one. -/
abbrev Script := List (Timed (Except IoFault Event))

def Arrival.ofAnswer : Except IoFault Event → Arrival
  | .ok e => .events [e]
  | .error f => .fault f

namespace Script

def reading (s : Script) (r : Rhythm) (clock : Nat → Instant) (deadzone : Float32)
    (hasSwitches : Bool) : Reading :=
  .of clock (.fresh deadzone hasSwitches)
    (r.timeline (handedOnAtOnce (s.map (Timed.map Arrival.ofAnswer))))

def FailsAt (s : Script) (t : Nat) : Prop := ∃ f, ⟨t, .error f⟩ ∈ s

def ReportsAt (s : Script) (t : Nat) : Prop :=
  ∃ e, ⟨t, .ok e⟩ ∈ s ∧ (Turn.event e).isReport = true

def eventsBefore (s : Script) (t : Nat) : List Turn :=
  s.filterMap fun x => if x.time < t then x.what.toOption.map Turn.event else none

/-- A sample of the sticks as the events before a time told. -/
def sampleAt (s : Script) (clock : Nat → Instant) (deadzone : Float32) (t : Nat) : Sample :=
  { axes := (Sticks.told (s.eventsBefore t)).axes deadzone, timestamp := clock t
    source := .joystick, valid := true }

end Script

/-- No two things happen at one time. -/
structure Rhythm.Apart (r : Rhythm) (s : Script) : Prop where
  interval_pos : 0 < r.interval
  ordered : s.Pairwise (·.time < ·.time)
  script_stop : ∀ x ∈ s, x.time ≠ r.stop
  script_ticks : ∀ x ∈ s, ¬ r.interval ∣ x.time
  stop_ticks : ¬ r.interval ∣ r.stop

/-! ## The course of a reader -/

def Taken.ofTurn : Except IoFault Turn → Taken
  | .ok t => .input t.input
  | .error f => .fault f

namespace Rhythm

/-- What happens at a time, whether or not the reader lives to see it. -/
inductive Happens (r : Rhythm) (s : Script) : Nat → Except IoFault Turn → Prop
  | fault {t : Nat} {f : IoFault} (h : ⟨t, .error f⟩ ∈ s) : Happens r s t (.error f)
  | event {t : Nat} {e : Event} (h : ⟨t, .ok e⟩ ∈ s) : Happens r s t (.ok (.event e))
  | drop : Happens r s r.stop (.ok .drop)
  | republish {t : Nat} (hdvd : r.interval ∣ t) (hle : t ≤ r.stop + r.interval) :
    Happens r s t (.ok .republish)

def course (r : Rhythm) (s : Script) : List (Timed (Except IoFault Turn)) :=
  Timeline.merge
    (Timeline.merge (s.map (Timed.map (Except.map Turn.event))) [⟨r.stop, .ok .drop⟩])
    ((Timeline.ticks r.interval (r.stop + r.interval)).map (⟨·, .ok .republish⟩))

theorem timeline_handedOnAtOnce (r : Rhythm) (s : Script) :
    r.timeline (handedOnAtOnce (s.map (Timed.map Arrival.ofAnswer))) =
      (r.course s).map (Timed.map Taken.ofTurn) := by
  have hdevice : handedOnAtOnce (s.map (Timed.map Arrival.ofAnswer)) =
      (s.map (Timed.map (Except.map Turn.event))).map (Timed.map Taken.ofTurn) := by
    unfold handedOnAtOnce
    rw [List.flatMap_map, List.map_map, List.map_eq_flatMap]
    refine List.flatMap_congr fun x _ => ?_
    rcases x with ⟨time, f | e⟩ <;> rfl
  have hticks : r.ticks = ((Timeline.ticks r.interval (r.stop + r.interval)).map
      (⟨·, .ok .republish⟩)).map (Timed.map Taken.ofTurn) := by
    unfold ticks
    rw [List.map_map]
    rfl
  unfold timeline course
  rw [hdevice, hticks, Timeline.map_merge, Timeline.map_merge]
  rfl

variable {r : Rhythm} {s : Script}

theorem mem_course_iff (h : 0 < r.interval) (x : Timed (Except IoFault Turn)) :
    x ∈ r.course s ↔ r.Happens s x.time x.what := by
  unfold course
  rw [Timeline.mem_merge, Timeline.mem_merge, List.mem_map, List.mem_singleton, List.mem_map]
  simp only [Timeline.mem_ticks_iff h]
  constructor
  · rintro ((⟨⟨t, f | e⟩, hmem, rfl⟩ | rfl) | ⟨t, ⟨hdvd, hle⟩, rfl⟩)
    · exact .fault hmem
    · exact .event hmem
    · exact .drop
    · exact .republish hdvd hle
  · obtain ⟨t, what⟩ := x
    rintro (hmem | hmem | _ | ⟨hdvd, hle⟩)
    · exact .inl (.inl ⟨_, hmem, rfl⟩)
    · exact .inl (.inl ⟨_, hmem, rfl⟩)
    · exact .inl (.inr rfl)
    · exact .inr ⟨t, ⟨hdvd, hle⟩, rfl⟩

theorem pairwise_course (h : r.Apart s) : (r.course s).Pairwise (·.time < ·.time) := by
  have hs : (s.map (Timed.map (Except.map Turn.event))).Pairwise (·.time < ·.time) :=
    List.pairwise_map.mpr h.ordered
  have hticks : ((Timeline.ticks r.interval (r.stop + r.interval)).map
      fun t => (⟨t, .ok .republish⟩ : Timed (Except IoFault Turn))).Pairwise (·.time < ·.time) :=
    List.pairwise_map.mpr (Timeline.pairwise_ticks h.interval_pos _)
  have hdrop : ∀ x ∈ s.map (Timed.map (Except.map Turn.event)),
      ∀ y ∈ [(⟨r.stop, .ok .drop⟩ : Timed (Except IoFault Turn))], x.time ≠ y.time := by
    intro x hx y hy
    obtain ⟨a, ha, rfl⟩ := List.mem_map.mp hx
    rw [List.mem_singleton.mp hy]
    exact h.script_stop a ha
  refine Timeline.pairwise_lt_merge
    (Timeline.pairwise_lt_merge hs (List.pairwise_singleton _ _) hdrop) hticks fun x hx y hy => ?_
  obtain ⟨t, ht, rfl⟩ := List.mem_map.mp hy
  have hdvd := ((Timeline.mem_ticks_iff h.interval_pos _ _).mp ht).1
  rintro rfl
  rcases Timeline.mem_merge.mp hx with hx | hx
  · obtain ⟨a, ha, rfl⟩ := List.mem_map.mp hx
    exact h.script_ticks a ha hdvd
  · obtain rfl := List.mem_singleton.mp hx
    exact h.stop_ticks hdvd

theorem report_happens_iff (u : Nat) :
    (∃ t : Turn, t.isReport = true ∧ r.Happens s u (.ok t)) ↔ s.ReportsAt u := by
  constructor
  · rintro ⟨t, hreport, hmem | hmem | _ | _⟩
    · exact ⟨_, hmem, hreport⟩
    · cases hreport
    · cases hreport
  · rintro ⟨e, he, hreport⟩
    exact ⟨.event e, hreport, .event he⟩

/-! ## What came before -/

section Before

variable {past : List (Timed Turn)} {x : Timed (Except IoFault Turn)}
  {rest : List (Timed (Except IoFault Turn))} (h : r.Apart s)
  (hsplit : r.course s = past.map (Timed.map Except.ok) ++ x :: rest)

include h hsplit

theorem mem_past_iff (y : Timed Turn) :
    y ∈ past ↔ r.Happens s y.time (.ok y.what) ∧ y.time < x.time := by
  have hinjective : Function.Injective (Timed.map (Except.ok : Turn → Except IoFault Turn)) := by
    rintro ⟨_, _⟩ ⟨_, _⟩ heq
    cases heq
    rfl
  rw [← List.mem_map_of_injective hinjective, ← Timeline.filter_of_split (pairwise_course h) hsplit,
    List.mem_filter, decide_eq_true_eq, mem_course_iff h.interval_pos]
  rfl

theorem mem_turns_past_iff (t : Turn) :
    t ∈ past.map Timed.what ↔ ∃ u < x.time, r.Happens s u (.ok t) := by
  simp only [List.mem_map, mem_past_iff h hsplit]
  constructor
  · rintro ⟨⟨u, _⟩, ⟨hy, hu⟩, rfl⟩
    exact ⟨u, hu, hy⟩
  · rintro ⟨u, hu, hy⟩
    exact ⟨⟨u, t⟩, ⟨hy, hu⟩, rfl⟩

theorem drop_mem_past_iff : .drop ∈ past.map Timed.what ↔ r.stop < x.time := by
  rw [mem_turns_past_iff h hsplit]
  constructor
  · rintro ⟨u, hu, ⟨⟩⟩
    exact hu
  · exact fun hstop => ⟨r.stop, hstop, .drop⟩

theorem report_mem_past_iff :
    (∃ t ∈ past.map Timed.what, t.isReport = true) ↔ ∃ u < x.time, s.ReportsAt u := by
  simp only [mem_turns_past_iff h hsplit, ← report_happens_iff (r := r)]
  constructor
  · rintro ⟨t, ⟨u, hu, hy⟩, ht⟩
    exact ⟨u, hu, t, ht, hy⟩
  · rintro ⟨u, hu, t, ht, hy⟩
    exact ⟨t, ⟨u, hu, hy⟩, ht⟩

theorem sticks_told_past :
    Sticks.told (past.map Timed.what) = Sticks.told (s.eventsBefore x.time) := by
  refine Sticks.told_congr fun c => congrArg List.getLast? ?_
  let value (y : Timed (Except IoFault Turn)) : Option Int32 :=
    if y.time < x.time then y.what.toOption.bind (Turn.value? c) else none
  have hpast : (past.map Timed.what).filterMap (Turn.value? c) =
      (r.course s).filterMap value := by
    have hfilter := congrArg (List.filterMap fun y => y.what.toOption.bind (Turn.value? c))
      (Timeline.filter_of_split (pairwise_course h) hsplit)
    rw [List.filterMap_filter, List.filterMap_map] at hfilter
    rw [List.filterMap_map]
    refine hfilter.symm.trans (List.filterMap_congr fun y _ => ?_)
    simp only [decide_eq_true_eq, value]
  have hscript : (r.course s).filterMap value =
      (s.eventsBefore x.time).filterMap (Turn.value? c) := by
    unfold course Script.eventsBefore
    -- Ticks and the leaving of the listener say nothing of any control.
    rw [Timeline.filterMap_merge, Timeline.filterMap_merge, List.filterMap_map,
      List.filterMap_filterMap]
    · refine List.filterMap_congr fun y _ => ?_
      by_cases hearly : y.time < x.time
      · rcases y with ⟨time, f | e⟩ <;> simp [value, Timed.map, Except.map, Except.toOption, hearly]
      · simp [value, Timed.map, hearly]
    · simp [value, Except.toOption, Turn.value?]
    · simp [value, Except.toOption, Turn.value?]
  rw [hpast, hscript]

end Before

/-! ## What ends a reader -/

/-- Whether something ends a reader that lives to see it. -/
def halts (r : Rhythm) (x : Timed (Except IoFault Turn)) : Bool :=
  match x.what with
  | .error _ => true
  | .ok t => r.stop < x.time && (t.isReport || t = .republish)

section Answers

variable {past : List (Timed Turn)} {time : Nat} {t : Turn}
  {rest : List (Timed (Except IoFault Turn))} (h : r.Apart s)
  (hsplit : r.course s = past.map (Timed.map Except.ok) ++ ⟨time, .ok t⟩ :: rest)
  (clock : Nat → Instant) (deadzone : Float32) (hasSwitches : Bool)

include h hsplit

theorem goesOn_told_iff (now : Instant) :
    ((Publisher.told deadzone hasSwitches (past.map Timed.what)).emits now t.input).goesOn = true ↔
      r.halts ⟨time, .ok t⟩ = false := by
  rw [Publisher.goesOn_emits_iff, Publisher.isOpen_told, drop_mem_past_iff h hsplit, Ne,
    Turn.input_eq_report_iff, Ne, Turn.input_eq_tick_iff]
  simp only [halts, Bool.and_eq_false_imp, Bool.or_eq_false_iff, decide_eq_true_eq,
    decide_eq_false_iff_not, Bool.not_eq_true]
  exact imp_iff_not_or.symm

theorem sample_told_iff (y : Sample) :
    ((Publisher.told deadzone hasSwitches (past.map Timed.what)).emits (clock time)
        t.input).sample = some y ↔
      time ≤ r.stop ∧ (t.isReport = true ∨ t = .republish ∧ ∃ u < time, s.ReportsAt u) ∧
        y = s.sampleAt clock deadzone time := by
  have hdeadzone : (Publisher.told deadzone hasSwitches (past.map Timed.what)).deadzone =
      deadzone := Publisher.deadzone_after _ _
  rw [Publisher.sample_emits_iff, Publisher.isOpen_told, drop_mem_past_iff h hsplit, Nat.not_lt,
    Turn.input_eq_report_iff, Turn.input_eq_tick_iff, Publisher.hasReport_told,
    report_mem_past_iff h hsplit, Publisher.sample, Publisher.sticks_told, hdeadzone,
    sticks_told_past h hsplit, eq_comm (b := y)]
  rfl

end Answers

theorem heard_happens_iff (h : r.Apart s) (u : Nat) (may : Prop) :
    (∃ t : Turn, r.Happens s u (.ok t) ∧ u ≤ r.stop ∧
      (t.isReport = true ∨ t = .republish ∧ may)) ↔
      u < r.stop ∧ (s.ReportsAt u ∨ r.interval ∣ u ∧ may) := by
  constructor
  · rintro ⟨t, hmem, hle, hreport | ⟨rfl, hmay⟩⟩
    · obtain ⟨e, he, hreport⟩ := (report_happens_iff u).mp ⟨t, hreport, hmem⟩
      exact ⟨Nat.lt_of_le_of_ne hle (h.script_stop _ he), .inl ⟨e, he, hreport⟩⟩
    · obtain ⟨⟩ | ⟨⟩ | _ | ⟨hdvd, -⟩ := hmem
      exact ⟨Nat.lt_of_le_of_ne hle fun heq => h.stop_ticks (heq ▸ hdvd), .inr ⟨hdvd, hmay⟩⟩
  · rintro ⟨hlt, hreports | ⟨hdvd, hmay⟩⟩
    · obtain ⟨t, hreport, hmem⟩ := (report_happens_iff u).mpr hreports
      exact ⟨t, hmem, Nat.le_of_lt hlt, .inl hreport⟩
    · have hle : u ≤ r.stop + r.interval := Nat.le_add_right_of_le (Nat.le_of_lt hlt)
      exact ⟨.republish, .republish hdvd hle, Nat.le_of_lt hlt, .inr ⟨rfl, hmay⟩⟩

theorem exists_halts_iff (h : 0 < r.interval) (u : Nat) :
    (∃ x ∈ r.course s, r.halts x = true ∧ x.time = u) ↔
      s.FailsAt u ∨ r.stop < u ∧ (s.ReportsAt u ∨ r.interval ∣ u ∧ u ≤ r.stop + r.interval) := by
  simp only [mem_course_iff h]
  constructor
  · rintro ⟨⟨time, f | t⟩, hx, hhalts, rfl⟩
    · cases hx with
      | fault hf => exact .inl ⟨f, hf⟩
    · simp only [halts, Bool.and_eq_true, Bool.or_eq_true, decide_eq_true_eq] at hhalts
      obtain ⟨hstop, hreport | rfl⟩ := hhalts
      · exact .inr ⟨hstop, .inl ((report_happens_iff time).mp ⟨t, hreport, hx⟩)⟩
      · cases hx with
        | republish hdvd hle => exact .inr ⟨hstop, .inr ⟨hdvd, hle⟩⟩
  · rintro (⟨f, hf⟩ | ⟨hstop, hreports | ⟨hdvd, hle⟩⟩)
    · exact ⟨⟨u, .error f⟩, .fault hf, rfl, rfl⟩
    · obtain ⟨t, hreport, hmem⟩ := (report_happens_iff u).mpr hreports
      exact ⟨⟨u, .ok t⟩, hmem, by simp [halts, hstop, hreport], rfl⟩
    · exact ⟨⟨u, .ok .republish⟩, .republish hdvd hle, by simp [halts, hstop], rfl⟩

theorem exists_tick_after (h : r.Apart s) :
    ∃ u, r.stop < u ∧ r.interval ∣ u ∧ u ≤ r.stop + r.interval := by
  refine ⟨r.interval * (r.stop / r.interval + 1), Nat.lt_mul_div_succ _ h.interval_pos,
    Nat.dvd_mul_right _ _, ?_⟩
  rw [Nat.mul_succ]
  exact Nat.add_le_add_right (Nat.mul_div_le _ _) _

/-- Whether a reader sees `past` and is ended by what comes then. -/
structure EndsWith (r : Rhythm) (s : Script) (past : List (Timed Turn))
    (x : Timed (Except IoFault Turn)) (rest : List (Timed (Except IoFault Turn))) : Prop where
  split : r.course s = past.map (Timed.map Except.ok) ++ x :: rest
  halts : r.halts x = true
  goesOn : ∀ y ∈ past, r.halts (y.map .ok) = false

theorem exists_endsWith (h : r.Apart s) : ∃ past x rest, r.EndsWith s past x rest := by
  obtain ⟨u, hu⟩ := exists_tick_after h
  obtain ⟨tick, hmem, hhalts, -⟩ := (exists_halts_iff h.interval_pos u).mpr
    (.inr ⟨hu.1, .inr hu.2⟩)
  obtain ⟨x, hfind⟩ := Option.isSome_iff_exists.mp (List.find?_isSome.mpr ⟨tick, hmem, hhalts⟩)
  obtain ⟨hx, before, rest, hsplit, hbefore⟩ := List.find?_eq_some_iff_append.mp hfind
  -- A fault halts, so there is none before the first thing that does.
  obtain ⟨past, rfl⟩ : before ∈ Set.range (List.map (Timed.map Except.ok)) := by
    rw [Set.range_list_map]
    rintro ⟨time, f | t⟩ hy
    · cases hbefore _ hy
    · exact ⟨⟨time, t⟩, rfl⟩
  refine ⟨past, x, rest, hsplit, hx, fun y hy => ?_⟩
  simpa using hbefore _ (List.mem_map_of_mem hy)

namespace EndsWith

variable {past : List (Timed Turn)} {x : Timed (Except IoFault Turn)}
  {rest : List (Timed (Except IoFault Turn))} (hends : r.EndsWith s past x rest)

include hends

theorem happens (h : 0 < r.interval) : r.Happens s x.time x.what :=
  (mem_course_iff h x).mp (hends.split ▸ List.mem_append_cons_self)

theorem split_past {before after : List (Timed Turn)} {y : Timed Turn}
    (hpast : past = before ++ y :: after) :
    r.course s = before.map (Timed.map Except.ok) ++
      ⟨y.time, .ok y.what⟩ :: (after.map (Timed.map Except.ok) ++ x :: rest) := by
  rw [hends.split, hpast, List.map_append, List.append_assoc]
  rfl

variable (h : r.Apart s)

include h

theorem le_of_halts {y : Timed (Except IoFault Turn)} (hy : y ∈ r.course s)
    (hhalts : r.halts y = true) : x.time ≤ y.time := by
  have hordered := pairwise_course h
  rw [hends.split] at hy hordered
  rcases List.mem_append.mp hy with hy | hy
  · obtain ⟨z, hz, rfl⟩ := List.mem_map.mp hy
    cases hhalts.symm.trans (hends.goesOn z hz)
  · rcases List.mem_cons.mp hy with rfl | hy
    · exact Nat.le_refl _
    · exact Nat.le_of_lt (List.rel_of_pairwise_cons (List.pairwise_append.mp hordered).2.1 hy)

theorem le_stop_add : x.time ≤ r.stop + r.interval := by
  obtain ⟨u, hstop, hdvd, hle⟩ := exists_tick_after h
  obtain ⟨y, hy, hhalts, rfl⟩ :=
    (exists_halts_iff h.interval_pos u).mpr (.inr ⟨hstop, .inr ⟨hdvd, hle⟩⟩)
  exact (hends.le_of_halts h hy hhalts).trans hle

theorem isLeast :
    IsLeast {u | s.FailsAt u ∨ r.stop < u ∧ (s.ReportsAt u ∨ r.interval ∣ u)} x.time := by
  have hmem : x ∈ r.course s := hends.split ▸ List.mem_append_cons_self
  constructor
  · have hx := (exists_halts_iff h.interval_pos _).mp ⟨x, hmem, hends.halts, rfl⟩
    exact hx.imp_right fun ⟨hstop, hnews⟩ => ⟨hstop, hnews.imp_right And.left⟩
  · rintro u hu
    -- The course has ticks up to the bound only; those that would follow come after the end.
    by_cases hlate : r.stop + r.interval < u
    · exact (hends.le_stop_add h).trans (Nat.le_of_lt hlate)
    · have hsoon := hu.imp_right fun ⟨hstop, hnews⟩ =>
        And.intro hstop (hnews.imp_right fun hdvd => And.intro hdvd (Nat.le_of_not_lt hlate))
      obtain ⟨y, hy, hhalts, rfl⟩ := (exists_halts_iff h.interval_pos u).mpr hsoon
      exact hends.le_of_halts h hy hhalts

/-! ### The reading -/

variable (clock : Nat → Instant) (deadzone : Float32) (hasSwitches : Bool)

theorem goesOn_answers :
    ∀ e ∈ Publisher.answers clock deadzone hasSwitches past, e.what.goesOn = true := by
  intro e he
  obtain ⟨before, y, after, hpast, rfl⟩ := (Publisher.mem_answers_iff ..).mp he
  refine (goesOn_told_iff h (hends.split_past hpast) deadzone hasSwitches _).mpr ?_
  exact hends.goesOn y (hpast ▸ List.mem_append_cons_self)

theorem time_lt_of_mem_answers :
    ∀ e ∈ Publisher.answers clock deadzone hasSwitches past, e.time < x.time := by
  intro e he
  obtain ⟨before, y, after, hpast, rfl⟩ := (Publisher.mem_answers_iff ..).mp he
  exact ((mem_past_iff h hends.split y).mp (hpast ▸ List.mem_append_cons_self)).2

theorem reading_eq :
    s.reading r clock deadzone hasSwitches =
      let seen := Publisher.answers clock deadzone hasSwitches past
      match x.what with
      | .error f => { emissions := seen, ending := some ⟨x.time, .fault f⟩ }
      | .ok t =>
        let last := (Publisher.told deadzone hasSwitches (past.map Timed.what)).emits
          (clock x.time) t.input
        { emissions := seen ++ [⟨x.time, last⟩], ending := some ⟨x.time, .unheard⟩ } := by
  have hcourse : (r.course s).map (Timed.map Taken.ofTurn) =
      (past.map (Timed.map Turn.input)).map (Timed.map Taken.input) ++
        x.map Taken.ofTurn :: rest.map (Timed.map Taken.ofTurn) := by
    rw [hends.split, List.map_append, List.map_map, List.map_map]
    rfl
  have htold : (Publisher.fresh deadzone hasSwitches).after
      ((past.map (Timed.map Turn.input)).map Timed.what) =
        Publisher.told deadzone hasSwitches (past.map Timed.what) := by
    unfold Publisher.told
    rw [List.map_map, List.map_map]
    rfl
  unfold Script.reading
  rw [timeline_handedOnAtOnce, hcourse,
    Reading.of_append _ _ (hends.goesOn_answers h clock deadzone hasSwitches), htold]
  rcases x with ⟨time, f | t⟩
  · rw [Reading.of]
    exact congrArg (Reading.mk · _) (List.append_nil _)
  · have hlast := (goesOn_told_iff h hends.split deadzone hasSwitches (clock time)).not.mpr
      (by rw [hends.halts]; exact Bool.false_ne_true ∘ Eq.symm)
    rw [Reading.of]
    simp only [Timed.map, Taken.ofTurn, hlast]
    rfl

theorem reading_of_fault {f : IoFault} (hf : ⟨x.time, .error f⟩ ∈ s) :
    s.reading r clock deadzone hasSwitches =
      { emissions := Publisher.answers clock deadzone hasSwitches past
        ending := some ⟨x.time, .fault f⟩ } := by
  have hnodup : ((r.course s).map Timed.time).Nodup :=
    (List.pairwise_map.mpr (pairwise_course h)).imp Nat.ne_of_lt
  have hfault : ⟨x.time, .error f⟩ ∈ r.course s := (mem_course_iff h.interval_pos _).mpr (.fault hf)
  have hx : ⟨x.time, .error f⟩ = x :=
    List.inj_on_of_nodup_map hnodup hfault (hends.split ▸ List.mem_append_cons_self) rfl
  rw [hends.reading_eq h clock deadzone hasSwitches, ← hx]

theorem reading_of_not_failsAt (hx : ¬ s.FailsAt x.time) :
    ∃ last, s.reading r clock deadzone hasSwitches =
      { emissions := Publisher.answers clock deadzone hasSwitches past ++ [last]
        ending := some ⟨x.time, .unheard⟩ } := by
  have hhappens := hends.happens h.interval_pos
  rw [hends.reading_eq h clock deadzone hasSwitches]
  rcases x with ⟨time, f | t⟩
  · cases hhappens with
    | fault hf => exact absurd ⟨f, hf⟩ hx
  · exact ⟨_, rfl⟩

theorem samples_eq :
    (s.reading r clock deadzone hasSwitches).samples =
      (Publisher.answers clock deadzone hasSwitches past).filterMap
        fun e => e.what.sample.map (Timed.mk e.time) := by
  have hhalts := hends.halts
  rw [hends.reading_eq h clock deadzone hasSwitches]
  unfold Reading.samples
  rcases x with ⟨time, f | t⟩
  · rfl
  · have hstop : r.stop < time := by
      simp only [Rhythm.halts, Bool.and_eq_true, decide_eq_true_eq] at hhalts
      exact hhalts.1
    have hnone : ((Publisher.told deadzone hasSwitches (past.map Timed.what)).emits (clock time)
        t.input).sample = none := by
      rw [Option.eq_none_iff_forall_ne_some]
      intro y hy
      have hopen := (sample_told_iff h hends.split clock deadzone hasSwitches y).mp hy
      exact Nat.not_lt.mpr hopen.1 hstop
    simp [List.filterMap_append, hnone]

theorem mem_samples_iff (y : Timed Sample) :
    y ∈ (s.reading r clock deadzone hasSwitches).samples ↔
      y.time < x.time ∧ y.time < r.stop ∧
      (s.ReportsAt y.time ∨ r.interval ∣ y.time ∧ ∃ u < y.time, s.ReportsAt u) ∧
      y.what = s.sampleAt clock deadzone y.time := by
  rw [hends.samples_eq h clock deadzone hasSwitches, List.mem_filterMap]
  constructor
  · rintro ⟨e, he, hsample⟩
    obtain ⟨before, z, after, hpast, rfl⟩ := (Publisher.mem_answers_iff ..).mp he
    obtain ⟨sent, hsent, rfl⟩ := Option.map_eq_some_iff.mp hsample
    obtain ⟨hhappens, hlt⟩ :=
      (mem_past_iff h hends.split z).mp (hpast ▸ List.mem_append_cons_self)
    obtain ⟨hstop, hwhen, rfl⟩ :=
      (sample_told_iff h (hends.split_past hpast) clock deadzone hasSwitches sent).mp hsent
    obtain ⟨hstop, hwhen⟩ := (heard_happens_iff h z.time _).mp ⟨z.what, hhappens, hstop, hwhen⟩
    exact ⟨hlt, hstop, hwhen, rfl⟩
  · obtain ⟨u, sent⟩ := y
    rintro ⟨hlt, hstop, hwhen, hsent⟩
    obtain ⟨t, hhappens, hle, hwhen⟩ := (heard_happens_iff h u _).mpr ⟨hstop, hwhen⟩
    obtain ⟨before, after, hpast⟩ :=
      List.append_of_mem ((mem_past_iff h hends.split ⟨u, t⟩).mpr ⟨hhappens, hlt⟩)
    refine ⟨_, (Publisher.mem_answers_iff ..).mpr ⟨before, ⟨u, t⟩, after, hpast, rfl⟩, ?_⟩
    refine Option.map_eq_some_iff.mpr ⟨sent, ?_, rfl⟩
    exact (sample_told_iff h (hends.split_past hpast) clock deadzone hasSwitches sent).mpr
      ⟨hle, hwhen, hsent⟩

theorem pairwise_samples :
    (s.reading r clock deadzone hasSwitches).samples.Pairwise (·.time < ·.time) := by
  have hpast : (past.map Timed.time).Pairwise (· < ·) := by
    have hcourse := pairwise_course h
    rw [hends.split] at hcourse
    have hseen := List.pairwise_map.mp (List.pairwise_append.mp hcourse).1
    exact List.pairwise_map.mpr hseen
  rw [← Publisher.map_time_answers clock deadzone hasSwitches, List.pairwise_map] at hpast
  rw [hends.samples_eq h clock deadzone hasSwitches, List.pairwise_filterMap]
  refine hpast.imp fun hlt y hy z hz => ?_
  obtain ⟨-, -, rfl⟩ := Option.map_eq_some_iff.mp hy
  obtain ⟨-, -, rfl⟩ := Option.map_eq_some_iff.mp hz
  exact hlt

end EndsWith

end Rhythm

/-! ## The end -/

/-- A reader ends at the first fault of its device, or at the first report or tick after its
listener has left. Until then it sends a sample with each report and each tick after the first. -/
theorem Script.reading_ends {r : Rhythm} {s : Script} (h : r.Apart s) (clock : Nat → Instant)
    (deadzone : Float32) (hasSwitches : Bool) (device : String) :
    let reading := s.reading r clock deadzone hasSwitches
    ∃ e, reading.ending = some e ∧
      IsLeast {t | s.FailsAt t ∨ r.stop < t ∧ (s.ReportsAt t ∨ r.interval ∣ t)} e.time ∧
      e.time ≤ r.stop + r.interval ∧
      (∀ f, ⟨e.time, .error f⟩ ∈ s →
        reading.log device = [⟨.warn, Ending.origin,
          "Joystick " ++ device ++ " stopped: " ++ f.message⟩] ∧
        ∀ x ∈ reading.emissions, x.time < e.time) ∧
      (¬ s.FailsAt e.time → reading.log device =
        [⟨.debug, Ending.origin, "Bus closed, stopping joystick " ++ device⟩]) ∧
      reading.samples.Pairwise (·.time < ·.time) ∧
      ∀ x, x ∈ reading.samples ↔ x.time < e.time ∧ x.time < r.stop ∧
        (s.ReportsAt x.time ∨ r.interval ∣ x.time ∧ ∃ t < x.time, s.ReportsAt t) ∧
        x.what = s.sampleAt clock deadzone x.time := by
  intro reading
  obtain ⟨past, x, rest, hends⟩ := Rhythm.exists_endsWith h
  have hsent := hends.pairwise_samples h clock deadzone hasSwitches
  have hsamples := hends.mem_samples_iff h clock deadzone hasSwitches
  by_cases hfails : s.FailsAt x.time
  · obtain ⟨f, hf⟩ := hfails
    have hreading := hends.reading_of_fault h clock deadzone hasSwitches hf
    have hearlier : ∀ y ∈ reading.emissions, y.time < x.time := by
      unfold reading
      rw [hreading]
      exact hends.time_lt_of_mem_answers h clock deadzone hasSwitches
    refine ⟨⟨x.time, .fault f⟩, congrArg Reading.ending hreading, hends.isLeast h,
      hends.le_stop_add h, fun g hg => ⟨?_, hearlier⟩, fun hno => absurd ⟨f, hf⟩ hno, hsent,
      hsamples⟩
    exact congrArg (Reading.log · device) (hends.reading_of_fault h clock deadzone hasSwitches hg)
  · obtain ⟨last, hreading⟩ := hends.reading_of_not_failsAt h clock deadzone hasSwitches hfails
    exact ⟨⟨x.time, .unheard⟩, congrArg Reading.ending hreading, hends.isLeast h,
      hends.le_stop_add h, fun f hf => absurd ⟨f, hf⟩ hfails,
      fun _ => congrArg (Reading.log · device) hreading, hsent, hsamples⟩

/-- The sticks move on after the listener has left at 250. -/
def lateReport : Script :=
  [⟨30, .ok ⟨3, 0, 200⟩⟩, ⟨31, .ok ⟨0, 0, 0⟩⟩, ⟨150, .ok ⟨3, 0, 255⟩⟩, ⟨260, .ok ⟨3, 1, 0⟩⟩,
    ⟨270, .ok ⟨1, 310, 1⟩⟩, ⟨280, .ok ⟨0, 0, 0⟩⟩, ⟨290, .error .noDevice⟩]

theorem lateReport_apart : Rhythm.Apart ⟨100, 250⟩ lateReport where
  interval_pos := by decide
  ordered := by decide
  script_stop := by decide
  script_ticks := by decide
  stop_ticks := by decide

theorem lateReport_ends :
    Rhythm.Apart ⟨100, 250⟩ lateReport ∧
    let reading := lateReport.reading ⟨100, 250⟩ (fun _ => .zero) 0.05 true
    reading.ending = some ⟨280, .unheard⟩ ∧
      IsLeast {t | lateReport.FailsAt t ∨ 250 < t ∧ (lateReport.ReportsAt t ∨ 100 ∣ t)} 280 ∧
      reading.samples.map Timed.time = [31, 100, 200] ∧
      ∀ x ∈ reading.samples, x.what = lateReport.sampleAt (fun _ => .zero) 0.05 x.time := by
  refine ⟨lateReport_apart, ?_⟩
  intro reading
  obtain ⟨e, hending, hleast, -, -, -, -, hsamples⟩ :=
    Script.reading_ends lateReport_apart (fun _ => .zero) 0.05 true "pad"
  have hunheard : reading.ending = some ⟨280, .unheard⟩ := rfl
  obtain rfl := Option.some.inj (hending.symm.trans hunheard)
  exact ⟨hunheard, hleast, rfl, fun x hx => ((hsamples x).mp hx).2.2.2⟩

end StickArbiter.Gamepad
