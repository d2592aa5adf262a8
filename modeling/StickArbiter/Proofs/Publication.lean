import Mathlib.Data.List.Basic
import StickArbiter.Proofs.History

/-!
# What is published

A valid cycle publishes its setpoint. The first cycle of an outage publishes the loss, which then
counts as announced however that send ended.
-/

namespace StickArbiter

def Call.setpoint? : Call → Option Setpoint
  | command _ => none
  | publish sp => some sp

/-! ## One cycle -/

namespace Arbiter

theorem setpoints_requests (rs : List Bool) (now : Instant) :
    (rs.map fun arm => Call.command (.request arm now)).filterMap Call.setpoint? = [] := by
  induction rs with
  | nil => rfl
  | cons arm rs ih => exact ih

theorem handleInvalid_outcome (a : Arbiter) (d : Downlink) :
    (a.handleInvalid d).arbiter.phase = .lossAnnounced ∧
    (a.handleInvalid d).arbiter.pollInterval = a.pollInterval ∧
    (a.handleInvalid d).wakeup = { timeout := a.pollInterval } := by
  unfold handleInvalid
  cases a.phase <;> exact ⟨rfl, rfl, rfl⟩

theorem handleInvalid_calls (a : Arbiter) (d : Downlink) :
    (a.handleInvalid d).calls = if a.phase = .tracking then [.publish a.setpoint] else [] := by
  unfold handleInvalid
  cases a.phase <;> rfl

theorem phase_cycle (a : Arbiter) (f : Feed) (d : Downlink) :
    (a.cycle f d).arbiter.phase =
      if (a.observe f).setpoint.valid then .tracking else .lossAnnounced := by
  cases h : (a.observe f).setpoint.valid
  · rw [cycle_of_invalid a f d h]
    exact (handleInvalid_outcome _ d).1
  · rw [cycle_of_valid a f d h]; rfl

theorem setpoints_cycle (a : Arbiter) (f : Feed) (d : Downlink) :
    (a.cycle f d).calls.filterMap Call.setpoint? =
      if (a.observe f).setpoint.valid ∨ a.phase = .tracking then [(a.cycle f d).arbiter.setpoint]
      else [] := by
  have hphase : (a.observe f).phase = a.phase := phase_begin a f
  cases h : (a.observe f).setpoint.valid
  · rw [setpoint_cycle, cycle_of_invalid a f d h, handleInvalid_calls, h, ← hphase]
    cases (a.observe f).phase <;> rfl
  · rw [cycle_of_valid a f d h]
    simp only [publishValid, List.filterMap_append, setpoints_requests]
    simp [Call.setpoint?, Arbiter.setpoint]

theorem pollInterval_cycle (a : Arbiter) (f : Feed) (d : Downlink) :
    (a.cycle f d).arbiter.pollInterval = a.pollInterval := by
  have hpoll : (a.observe f).pollInterval = a.pollInterval := pollInterval_begin a f
  cases h : (a.observe f).setpoint.valid
  · rw [cycle_of_invalid a f d h, ← hpoll]
    exact (handleInvalid_outcome _ d).2.1
  · rw [cycle_of_valid a f d h, ← hpoll]; rfl

theorem wakeup_cycle (a : Arbiter) (f : Feed) (d : Downlink) :
    (a.cycle f d).wakeup =
      if (a.observe f).setpoint.valid then
        { onInput := (a.observe f).setpoint.slot, onSwitches := true, timeout := a.pollInterval }
      else { timeout := a.pollInterval } := by
  have hpoll : (a.observe f).pollInterval = a.pollInterval := pollInterval_begin a f
  cases h : (a.observe f).setpoint.valid
  · rw [cycle_of_invalid a f d h, ← hpoll]
    exact (handleInvalid_outcome _ d).2.2
  · rw [cycle_of_valid a f d h, ← hpoll]; rfl

end Arbiter

/-! ## The cycles of a run -/

namespace History

def pollInterval : History → Span
  | create _ _ pollInterval => pollInterval
  | cycle past _ _ => past.pollInterval
  | apply past _ => past.pollInterval

/-- What the last move published: only a cycle publishes anything. -/
def published : History → List Setpoint
  | cycle past f d => (past.outcome f d).calls.filterMap Call.setpoint?
  | _ => []

def accepted : History → List Setpoint
  | cycle past f d => (past.cycle f d).published.filter fun sp => (d.publish sp).isNone
  | _ => []

/-- Cycles without input, the first of which follows a valid cycle or none. -/
structure Outage (before : List History) (first : History) (rest : List History) : Prop where
  begins : ∀ c, before.getLast? = some c → c.arbiter.setpoint.valid = true
  lost : ∀ c ∈ first :: rest, c.arbiter.setpoint.valid = false

theorem pollInterval_arbiter (past : History) :
    past.arbiter.pollInterval = past.pollInterval := by
  induction past with
  | create count p pollInterval => rfl
  | cycle past f d ih => exact (past.arbiter.pollInterval_cycle f d).trans ih
  | apply past p ih => exact ih

theorem cycles_eq_of_append {run past : History} {f : Feed} {d : Downlink}
    {before after : List History} (h : run.cycles = before ++ past.cycle f d :: after) :
    past.cycles = before ∧ past.count = run.count ∧ past.pollInterval = run.pollInterval := by
  induction run generalizing after with
  | create count p pollInterval => simp [cycles] at h
  | cycle run g e ih =>
    rw [cycles] at h
    rcases List.eq_nil_or_concat' after with rfl | ⟨after, last, rfl⟩
    · obtain ⟨hcycles, hlast⟩ := List.append_singleton_inj.mp h
      cases hlast
      exact ⟨hcycles, rfl, rfl⟩
    · rw [← List.cons_append, ← List.append_assoc] at h
      exact ih (List.append_singleton_inj.mp h).1
  | apply run p ih => exact ih h

theorem exists_cycle_of_mem (run c : History) (h : c ∈ run.cycles) :
    ∃ (past : History) (f : Feed) (d : Downlink), c = past.cycle f d := by
  induction run with
  | create count p pollInterval => cases h
  | cycle run f d ih =>
    rw [cycles, List.mem_append, List.mem_singleton] at h
    rcases h with h | rfl
    · exact ih h
    · exact ⟨run, f, d, rfl⟩
  | apply run p ih => exact ih h

theorem phase_eq_tracking_iff (past : History) :
    past.arbiter.phase = .tracking ↔
      ∀ c, past.cycles.getLast? = some c → c.arbiter.setpoint.valid = true := by
  induction past with
  | create count p pollInterval => exact iff_of_true rfl nofun
  | cycle past f d _ =>
    have hphase : (past.cycle f d).arbiter.phase = _ := past.arbiter.phase_cycle f d
    rw [hphase, ← past.valid_cycle f d]
    simp [cycles]
  | apply past p ih => exact ih

theorem published_cycle (past : History) (f : Feed) (d : Downlink) :
    (past.cycle f d).published =
      if (past.cycle f d).arbiter.setpoint.valid ∨ past.arbiter.phase = .tracking then
        [(past.cycle f d).arbiter.setpoint]
      else [] := by
  rw [valid_cycle]
  exact past.arbiter.setpoints_cycle f d

theorem slot_eq_none_of_lost {c : History} (h : c.arbiter.setpoint.valid = false) :
    c.arbiter.setpoint.slot = none := by
  induction c with
  | create count p pollInterval => rfl
  | cycle past f d _ =>
    rw [valid_cycle] at h
    exact (past.arbiter.slot_cycle f d).trans
      (Selector.selected_eq_none ((past.arbiter.begin f).selector.settled_taken f) h)
  | apply past p ih => exact ih h

theorem slot_of_valid (past : History) (f : Feed) (d : Downlink)
    (h : (past.cycle f d).arbiter.setpoint.valid = true) :
    ∃ i, (past.cycle f d).arbiter.setpoint.slot = some i ∧ i < past.count := by
  have hslot : (past.cycle f d).arbiter.setpoint.slot = _ := past.arbiter.slot_cycle f d
  rw [valid_cycle] at h
  rcases past.observe_cases f d with ⟨i, r, hlive, -, hseen⟩ | ⟨-, hseen⟩
  · refine ⟨i, ?_, hlive.1⟩
    rw [hslot]
    change (past.arbiter.observe f).setpoint.slot = some i
    rw [hseen]
    rfl
  · rw [hseen] at h
    cases h

/-! ## Outages -/

variable {run first : History} {before rest after : List History}

/-- An outage is published by its first cycle and by no other. -/
theorem published_of_outage (h : run.cycles = before ++ first :: rest ++ after)
    (hout : Outage before first rest) :
    first.published = [first.arbiter.setpoint] ∧ ∀ c ∈ rest, c.published = [] := by
  have hmem : ∀ c ∈ first :: rest, c ∈ run.cycles := by
    intro c hc
    rw [h]
    exact List.mem_append_left _ (List.mem_append_right _ hc)
  constructor
  · obtain ⟨past, f, d, rfl⟩ := exists_cycle_of_mem run first (hmem first (by simp))
    rw [List.append_assoc, List.cons_append] at h
    have htracking : past.arbiter.phase = .tracking := by
      rw [phase_eq_tracking_iff, (cycles_eq_of_append h).1]
      exact hout.begins
    rw [published_cycle, if_pos (Or.inr htracking)]
  · intro c hc
    obtain ⟨past, f, d, rfl⟩ := exists_cycle_of_mem run c (hmem c (by simp [hc]))
    obtain ⟨early, late, rfl⟩ := List.append_of_mem hc
    -- The cycle before this one belongs to the outage as well.
    have hcycles : run.cycles = before ++ first :: early ++ past.cycle f d :: (late ++ after) := by
      simpa using h
    have hpast := (cycles_eq_of_append hcycles).1
    have hannounced : ¬ past.arbiter.phase = .tracking := by
      rw [phase_eq_tracking_iff, hpast, List.getLast?_append_of_ne_nil _ (by simp),
        List.getLast?_eq_some_getLast (by simp)]
      intro htracking
      have hlast := List.getLast_mem (show first :: early ≠ [] by simp)
      have hlost := hout.lost ((first :: early).getLast (by simp)) (by
        rw [← List.cons_append]
        exact List.mem_append_left _ hlast)
      cases hlost.symm.trans (htracking _ rfl)
    rw [published_cycle, hout.lost _ (by simp), if_neg (by simp [hannounced])]

theorem outage_of_lossAnnounced (h : run.arbiter.phase = .lossAnnounced) :
    ∃ before first rest, run.cycles = before ++ first :: rest ∧ Outage before first rest := by
  induction run with
  | create count p pollInterval => cases h
  | cycle past f d ih =>
    have hphase : (past.cycle f d).arbiter.phase = _ := past.arbiter.phase_cycle f d
    have hlost : (past.cycle f d).arbiter.setpoint.valid = false := by
      rw [hphase, ← past.valid_cycle f d] at h
      simpa using h
    cases hp : past.arbiter.phase with
    | tracking =>
      exact ⟨past.cycles, past.cycle f d, [], rfl, (phase_eq_tracking_iff past).mp hp,
        by simpa using hlost⟩
    | lossAnnounced =>
      obtain ⟨before, first, rest, hcycles, hbegins, hall⟩ := ih hp
      refine ⟨before, first, rest ++ [past.cycle f d], by simp [cycles, hcycles], hbegins, ?_⟩
      rw [← List.cons_append, List.forall_mem_append, List.forall_mem_singleton]
      exact ⟨hall, hlost⟩
  | apply past p ih => exact ih h

/-- Whether some notice of the present outage went out without a fault. -/
def NoticeAccepted (run : History) : Prop :=
  ∃ before block, run.cycles = before ++ block ∧
    (∀ c ∈ block, c.arbiter.setpoint.valid = false) ∧
      ∃ c ∈ block, ∃ sp ∈ c.accepted, sp.valid = false

theorem accepted_subset_published (c : History) : c.accepted ⊆ c.published := by
  cases c with
  | cycle past f d => exact List.filter_subset_self _
  | create count p pollInterval => exact List.nil_subset _
  | apply past p => exact List.nil_subset _

theorem subset_outage {early block : List History} (h : run.cycles = before ++ first :: rest)
    (hout : Outage before first rest) (hblock : run.cycles = early ++ block)
    (hlost : ∀ c ∈ block, c.arbiter.setpoint.valid = false) : block ⊆ first :: rest := by
  rw [h] at hblock
  rcases List.append_eq_append_iff.mp hblock with ⟨between, -, hsplit⟩ | ⟨between, hbefore, hsplit⟩
  · rw [hsplit]
    exact List.subset_append_right _ _
  · rcases List.eq_nil_or_concat' between with rfl | ⟨between, last, rfl⟩
    · rw [hsplit]
      exact List.Subset.refl _
    · have hvalid := hout.begins last (by rw [hbefore, ← List.append_assoc, List.getLast?_concat])
      have hdead := hlost last (by rw [hsplit]; simp)
      cases hdead.symm.trans hvalid

theorem noticeAccepted_iff_of_outage {past : History} {f : Feed} {d : Downlink}
    (h : run.cycles = before ++ past.cycle f d :: rest)
    (hout : Outage before (past.cycle f d) rest) :
    run.NoticeAccepted ↔ d.publish (past.cycle f d).arbiter.setpoint = none := by
  have hpublished := published_of_outage (h.trans (List.append_nil _).symm) hout
  have haccepted : (past.cycle f d).accepted =
      if d.publish (past.cycle f d).arbiter.setpoint = none then [(past.cycle f d).arbiter.setpoint]
      else [] := by
    rw [accepted, hpublished.1]
    cases hsend : d.publish (past.cycle f d).arbiter.setpoint <;> simp [hsend]
  constructor
  · rintro ⟨early, block, hblock, hlost, c, hc, sp, hsp, -⟩
    rcases List.mem_cons.mp (subset_outage h hout hblock hlost hc) with rfl | hrest
    · rw [haccepted] at hsp
      by_contra hsend
      rw [if_neg hsend] at hsp
      cases hsp
    · have hnone := accepted_subset_published c hsp
      rw [hpublished.2 c hrest] at hnone
      cases hnone
  · intro hsend
    refine ⟨before, _, h, hout.lost, _, List.mem_cons_self, (past.cycle f d).arbiter.setpoint, ?_,
      hout.lost _ List.mem_cons_self⟩
    rw [haccepted, if_pos hsend]
    exact List.mem_singleton_self _

/-! ## The policy -/

/-- Every valid cycle publishes its setpoint, and every outage is published once, by its first
cycle. A cycle asks to be woken by the slot that it published. -/
theorem publishes_valid_and_first_lost (run : History) :
    (∀ past f d, cycle past f d ∈ run.cycles →
      ((past.cycle f d).arbiter.setpoint.valid = true →
        (past.cycle f d).published = [(past.cycle f d).arbiter.setpoint] ∧
        (past.cycle f d).arbiter.phase = .tracking ∧
        ∃ i < run.count, (past.cycle f d).arbiter.setpoint.slot = some i ∧
          (past.outcome f d).wakeup =
            { onInput := some i, onSwitches := true, timeout := run.pollInterval }) ∧
      ((past.cycle f d).arbiter.setpoint.valid = false →
        (past.cycle f d).arbiter.phase = .lossAnnounced ∧
        (past.outcome f d).wakeup =
          { onInput := none, onSwitches := false, timeout := run.pollInterval })) ∧
    (∀ before first rest after, run.cycles = before ++ first :: rest ++ after →
      Outage before first rest →
      ∃ sp, first.published = [sp] ∧ sp.valid = false ∧ sp.slot = none ∧
        ∀ c ∈ rest, c.published = []) := by
  constructor
  · intro past f d hmem
    obtain ⟨before, after, h⟩ := List.append_of_mem hmem
    obtain ⟨-, hcount, hpoll⟩ := cycles_eq_of_append h
    have hphase : (past.cycle f d).arbiter.phase = _ := past.arbiter.phase_cycle f d
    have hwakeup : (past.outcome f d).wakeup = _ := past.arbiter.wakeup_cycle f d
    rw [← past.valid_cycle f d] at hphase hwakeup
    rw [past.pollInterval_arbiter, hpoll] at hwakeup
    constructor
    · intro hvalid
      obtain ⟨i, hslot, hi⟩ := past.slot_of_valid f d hvalid
      rw [if_pos hvalid] at hphase hwakeup
      refine ⟨by rw [published_cycle, if_pos (Or.inl hvalid)], hphase, i, hcount ▸ hi, hslot, ?_⟩
      rw [hwakeup, ← hslot]
      exact congrArg (fun slot => ({ onInput := slot, onSwitches := true, timeout := _ } : Wakeup))
        (past.arbiter.slot_cycle f d).symm
    · intro hlost
      rw [if_neg (by simp [hlost])] at hphase hwakeup
      exact ⟨hphase, hwakeup⟩
  · intro before first rest after h hout
    obtain ⟨hfirst, hrest⟩ := published_of_outage h hout
    have hlost := hout.lost first List.mem_cons_self
    exact ⟨_, hfirst, hlost, slot_eq_none_of_lost hlost, hrest⟩

def silentAtFirst : History :=
  .cycle (.create 1 {} defaultPollInterval) { now := .zero } .open

def heardOnce : History :=
  silentAtFirst.cycle
    { now := .ofMillis 100
      sample := fun _ => some { axes := .zero, timestamp := .ofMillis 90, source := .rc } }
    .open

def lostAgain (d : Downlink) : History := heardOnce.cycle { now := .ofMillis 700 } d

def stillLost (d : Downlink) : History := (lostAgain d).cycle { now := .ofMillis 900 } .open

theorem cycles_stillLost (d : Downlink) :
    (stillLost d).cycles = [silentAtFirst, heardOnce, lostAgain d, stillLost d] := rfl

theorem outage_lostAgain (d : Downlink) :
    Outage [silentAtFirst, heardOnce] (lostAgain d) [stillLost d] := by
  constructor
  · rintro c ⟨⟩
    decide +kernel
  · simp only [List.forall_mem_cons, List.not_mem_nil, false_implies, implies_true, and_true]
    exact ⟨rfl, rfl⟩

theorem publishes_lostAgain :
    (heardOnce.published = [heardOnce.arbiter.setpoint] ∧ heardOnce.arbiter.phase = .tracking) ∧
    (lostAgain .open).arbiter.phase = .lossAnnounced ∧
    ∃ sp, (lostAgain .open).published = [sp] ∧ sp.valid = false ∧ sp.slot = none ∧
      (stillLost .open).published = [] := by
  obtain ⟨hcycle, houtage⟩ := publishes_valid_and_first_lost (stillLost .open)
  have hheard := (hcycle _ _ _ (show heardOnce ∈ (stillLost .open).cycles by
    simp [cycles_stillLost])).1 (by decide +kernel)
  have hlost := (hcycle _ _ _ (show lostAgain .open ∈ (stillLost .open).cycles by
    simp [cycles_stillLost])).2 rfl
  obtain ⟨sp, hfirst, hinvalid, hslot, hrest⟩ :=
    houtage _ _ _ [] (cycles_stillLost .open) (outage_lostAgain .open)
  exact ⟨⟨hheard.1, hheard.2.1⟩, hlost.1, sp, hfirst, hinvalid, hslot, hrest _ (by simp)⟩

/-! ## Who was told of an outage -/

/-- A notice of the outage has gone out exactly if its first cycle could send it: no later cycle
tries again. -/
theorem noticeAccepted_iff (run : History) (h : run.arbiter.phase = .lossAnnounced) :
    ∃ (before : List History) (past : History) (f : Feed) (d : Downlink) (rest : List History),
      run.cycles = before ++ past.cycle f d :: rest ∧ Outage before (past.cycle f d) rest ∧
      (past.cycle f d).published = [(past.cycle f d).arbiter.setpoint] ∧
      (∀ c ∈ rest, c.published = []) ∧
      (run.NoticeAccepted ↔ d.publish (past.cycle f d).arbiter.setpoint = none) := by
  obtain ⟨before, first, rest, hcycles, hout⟩ := outage_of_lossAnnounced h
  obtain ⟨past, f, d, rfl⟩ := exists_cycle_of_mem run first (by simp [hcycles])
  obtain ⟨hfirst, hrest⟩ := published_of_outage (hcycles.trans (List.append_nil _).symm) hout
  exact ⟨before, past, f, d, rest, hcycles, hout, hfirst, hrest,
    noticeAccepted_iff_of_outage hcycles hout⟩

theorem noticeAccepted_stillLost : (stillLost .open).NoticeAccepted := by
  obtain ⟨before, past, f, d, rest, hcycles, -, -, -, hiff⟩ :=
    noticeAccepted_iff (stillLost .open) rfl
  have hmem : past.cycle f d ∈ (stillLost .open).cycles := by simp [hcycles]
  have hopen : d = .open := by
    rw [cycles_stillLost] at hmem
    simp only [List.mem_cons, List.not_mem_nil, or_false] at hmem
    rcases hmem with h | h | h | h <;> cases h <;> rfl
  rw [hiff, hopen]
  rfl

/-- A notice that is refused once is never sent again, though the loss counts as announced. -/
theorem notice_not_accepted_stillLost :
    ¬ ∀ run : History, run.arbiter.phase = .lossAnnounced → run.NoticeAccepted := by
  intro h
  have hsent := (noticeAccepted_iff_of_outage
    (cycles_stillLost { publish := fun _ => some .noSubscribers })
      (outage_lostAgain _)).mp (h _ rfl)
  cases hsent

end History

end StickArbiter
