import Mathlib.Data.List.Basic
import Mathlib.Data.List.Forall2
import StickArbiter.Proofs.Publication

/-!
# The log of selections

A valid cycle logs each change of the selected slot. The lines and the cycles without input tell the
slot that each cycle published.
-/

namespace StickArbiter

/-! ## Lines about the selection -/

namespace LogLine

def selectionLead : String := "selected manual_control_input changed "

def isSelection (l : LogLine) : Bool := selectionLead.toList.isPrefixOf l.text.toList

def selection (before after : Option Nat) : LogLine :=
  ⟨.info, "manual_control::runner",
    selectionLead ++ optionText toString before ++ " -> " ++ optionText toString after⟩

theorem head?_of_isSelection {l : LogLine} (h : l.isSelection = true) :
    l.text.toList.head? = some 's' := by
  obtain ⟨rest, hrest⟩ := List.isPrefixOf_iff_prefix.mp h
  rw [← hrest, List.head?_append]
  rfl

theorem isSelection_selection (before after : Option Nat) :
    (selection before after).isSelection = true := by
  unfold isSelection selection
  simp only [String.append_assoc, String.toList_append]
  exact List.isPrefixOf_iff_prefix.mpr (List.prefix_append _ _)

theorem toList_optionText (n : Option Nat) :
    (optionText toString n).toList = match n with
      | none => ['N', 'o', 'n', 'e']
      | some n => ['S', 'o', 'm', 'e', '('] ++ Nat.toDigits 10 n ++ [')'] := by
  cases n with
  | none => rfl
  | some n => simp [optionText]

theorem blank_not_mem_optionText (n : Option Nat) : ' ' ∉ (optionText toString n).toList := by
  rw [toList_optionText]
  cases n with
  | none => decide
  | some n =>
    have hdigits : ' ' ∉ Nat.toDigits 10 n := fun h =>
      absurd (Nat.isDigit_of_mem_toDigits (by decide) (by decide) h) (by decide)
    simp [hdigits]

theorem optionText_injective : Function.Injective (optionText (toString (α := Nat))) := by
  intro m n h
  have h := congrArg String.toList h
  rw [toList_optionText, toList_optionText] at h
  cases m with
  | none =>
    cases n with
    | none => rfl
    | some n => simp at h
  | some m =>
    cases n with
    | none => simp at h
    | some n =>
      have hdigits : Nat.toDigits 10 m = Nat.toDigits 10 n := by simpa using h
      rw [← Nat.ofDigitChars_ten_toDigits (n := m), hdigits, Nat.ofDigitChars_ten_toDigits]

theorem takeWhile_optionText (n : Option Nat) (rest : List Char) :
    ((optionText toString n).toList ++ ' ' :: rest).takeWhile (· ≠ ' ') =
      (optionText toString n).toList := by
  rw [List.takeWhile_append_of_pos]
  · simp
  · intro c hc
    exact decide_eq_true fun hblank => blank_not_mem_optionText n (hblank ▸ hc)

/-- A line tells both slots, since the first one ends at a blank. -/
theorem selection_inj {a b a' b' : Option Nat} (h : selection a b = selection a' b') :
    a = a' ∧ b = b' := by
  have harrow : " -> ".toList = ' ' :: ['-', '>', ' '] := rfl
  have h := congrArg (String.toList ∘ LogLine.text) h
  simp only [selection, Function.comp_apply, String.toList_append, List.append_assoc,
    List.append_cancel_left_eq, harrow, List.cons_append] at h
  have hfirst : (optionText toString a).toList = (optionText toString a').toList := by
    have h := congrArg (List.takeWhile (· ≠ ' ')) h
    rwa [takeWhile_optionText, takeWhile_optionText] at h
  rw [hfirst] at h
  simp only [List.append_cancel_left_eq, List.cons.injEq, true_and, List.nil_append] at h
  exact ⟨optionText_injective (String.toList_inj.mp hfirst),
    optionText_injective (String.toList_inj.mp h)⟩

end LogLine

namespace ArbiterEvent

def isChange : ArbiterEvent → Bool
  | selectionChanged _ _ => true
  | _ => false

theorem head?_text_ne {e : ArbiterEvent} (h : e.isChange = false) :
    e.text.toList.head? ≠ some 's' := by
  cases e with
  | selectionChanged before after => cases h
  | inputLost => decide
  | statusReport s slot valid =>
    -- A report begins with a number.
    have hdigits : (toString s.cycles).toList = Nat.toDigits 10 s.cycles := by simp
    have hsome : (Nat.toDigits 10 s.cycles).head? ≠ none :=
      mt List.head?_eq_none_iff.mp Nat.toDigits_ne_nil
    obtain ⟨c, hc⟩ := Option.ne_none_iff_exists'.mp hsome
    have hdigit : c.isDigit = true :=
      Nat.isDigit_of_mem_toDigits (by decide) (by decide) (List.mem_of_head? hc)
    unfold text
    dsimp only
    simp only [String.toList_append, List.head?_append, hdigits, hc, Option.some_or]
    rintro ⟨⟩
    cases hdigit
  | _ =>
    -- The other texts begin with a capital letter.
    unfold text
    dsimp only
    simp only [String.toList_append, List.head?_append]
    exact fun h => by cases h

theorem isSelection_line (e : ArbiterEvent) : e.line.isSelection = e.isChange := by
  cases h : e.isChange with
  | false =>
    have htext : e.line.text = e.text := rfl
    by_contra hline
    have hhead := LogLine.head?_of_isSelection (Bool.of_not_eq_false hline)
    rw [htext] at hhead
    exact head?_text_ne h hhead
  | true =>
    cases e <;> cases h
    exact LogLine.isSelection_selection _ _

end ArbiterEvent

/-! ## One cycle -/

namespace Arbiter

variable (a : Arbiter) (f : Feed) (d : Downlink)

theorem lastSelected_observe : (a.observe f).lastSelected = a.lastSelected := by
  unfold observe begin
  cases f.parameters <;> rfl

theorem lastSelected_cycle :
    (a.cycle f d).arbiter.lastSelected =
      if (a.observe f).setpoint.valid then (a.observe f).setpoint.slot else none := by
  cases h : (a.observe f).setpoint.valid
  · rw [cycle_of_invalid a f d h]
    unfold handleInvalid
    dsimp only
    split <;> rfl
  · rw [cycle_of_valid a f d h]
    rfl

theorem changes_handleInvalid : (a.handleInvalid d).log.filter ArbiterEvent.isChange = [] := by
  unfold handleInvalid
  dsimp only
  cases a.phase <;> cases d.publish a.setpoint <;> rfl

theorem changes_publishValid :
    (a.publishValid f d).log.filter ArbiterEvent.isChange =
      if a.lastSelected = a.setpoint.slot then []
      else [.selectionChanged a.lastSelected a.setpoint.slot] := by
  have hrequests : (((requests a.gestureReport).map (requestEvent d f.now)).filter
      ArbiterEvent.isChange) = [] := by
    rw [List.filter_eq_nil_iff, List.forall_mem_map]
    intro arm _
    unfold requestEvent
    split <;> exact Bool.false_ne_true
  have hslot : (a.composed f.now).slot = a.setpoint.slot := rfl
  have hchange {p : Prop} [Decidable p] {e : ArbiterEvent} (he : e.isChange = true) :
      (if p then [] else [e]).filter ArbiterEvent.isChange = if p then [] else [e] := by
    split <;> simp [he]
  unfold publishValid
  dsimp only
  rw [List.filter_append, List.filter_append, List.filter_append, hrequests, hslot, hchange rfl]
  -- What is logged of the switches and of a failed publication is no change.
  cases d.publish (a.composed f.now) <;> cases f.switches
  · rfl
  · dsimp only; split <;> rfl
  · rfl
  · dsimp only; split <;> rfl

theorem changes_cycle :
    (a.cycle f d).log.filter ArbiterEvent.isChange =
      if (a.observe f).setpoint.valid = true ∧ a.lastSelected ≠ (a.observe f).setpoint.slot then
        [.selectionChanged a.lastSelected (a.observe f).setpoint.slot]
      else [] := by
  have hparameters : (parametersLog f).filter ArbiterEvent.isChange = [] := by
    unfold parametersLog
    cases f.parameters <;> rfl
  cases h : (a.observe f).setpoint.valid
  · rw [cycle_of_invalid a f d h, List.filter_append, hparameters, changes_handleInvalid]
    rfl
  · rw [cycle_of_valid a f d h, List.filter_append, hparameters, changes_publishValid,
      a.lastSelected_observe f]
    by_cases hslot : a.lastSelected = (a.observe f).setpoint.slot
    · rw [if_pos hslot, if_neg (fun hne => hne.2 hslot)]; rfl
    · rw [if_neg hslot, if_pos ⟨rfl, hslot⟩]; rfl

end Arbiter

/-! ## The cycles of a run -/

namespace History

/-- What the last move logged about the selection: only a cycle logs anything of it. -/
def selectionLines : History → List LogLine
  | cycle past f d => ((past.outcome f d).log.map ArbiterEvent.line).filter LogLine.isSelection
  | _ => []

/-- The slot that the last move published, whether or not that went out. -/
def publishedSlot (c : History) : Option Nat := c.published.head?.bind (·.slot)

/-- The slot that a run published right before its `k`-th cycle, if that cycle was valid. -/
def slotBefore (run : History) : Nat → Option Nat
  | 0 => none
  | k + 1 => (run.cycles[k]?.filter (·.arbiter.setpoint.valid)).bind publishedSlot

variable (past : History) (f : Feed) (d : Downlink)

theorem publishedSlot_cycle :
    (past.cycle f d).publishedSlot = (past.cycle f d).arbiter.setpoint.slot := by
  rw [publishedSlot, published_cycle]
  split
  · rfl
  · rename_i h
    rw [not_or, Bool.not_eq_true] at h
    exact (slot_eq_none_of_lost h.1).symm

theorem publishedSlot_of_lost {run c : History} (hc : c ∈ run.cycles)
    (h : c.arbiter.setpoint.valid = false) : c.publishedSlot = none := by
  obtain ⟨past, f, d, rfl⟩ := exists_cycle_of_mem run c hc
  rw [publishedSlot_cycle, slot_eq_none_of_lost h]

theorem slotBefore_succ {run c : History} {k : Nat} (h : run.cycles[k]? = some c) :
    run.slotBefore (k + 1) = c.publishedSlot := by
  rw [slotBefore, h, Option.filter_some]
  cases hvalid : c.arbiter.setpoint.valid with
  | true => rfl
  | false => exact (publishedSlot_of_lost (List.mem_of_getElem? h) hvalid).symm

theorem lastSelected_arbiter (run : History) :
    run.arbiter.lastSelected = run.slotBefore run.cycles.length := by
  induction run with
  | create count p pollInterval => rfl
  | cycle past f d _ =>
    have hlast : (past.cycle f d).arbiter.lastSelected = _ := past.arbiter.lastSelected_cycle f d
    have hk : (past.cycle f d).cycles[past.cycles.length]? = some (past.cycle f d) :=
      List.getElem?_concat_length
    have hlength : (past.cycle f d).cycles.length = past.cycles.length + 1 :=
      List.length_append
    rw [hlast, ← past.valid_cycle f d, hlength, slotBefore_succ hk, publishedSlot_cycle]
    cases hvalid : (past.cycle f d).arbiter.setpoint.valid with
    | true => exact (past.arbiter.slot_cycle f d).symm
    | false => exact (slot_eq_none_of_lost hvalid).symm
  | apply past p ih => exact ih

theorem lastSelected_of_getElem? {run : History} {k : Nat}
    (h : run.cycles[k]? = some (past.cycle f d)) :
    past.arbiter.lastSelected = run.slotBefore k := by
  obtain ⟨hk, hget⟩ := List.getElem?_eq_some_iff.mp h
  have hsplit : run.cycles = run.cycles.take k ++ past.cycle f d :: run.cycles.drop (k + 1) := by
    rw [← hget, List.getElem_cons_drop hk, List.take_append_drop]
  have hpast : past.cycles = run.cycles.take k := (cycles_eq_of_append hsplit).1
  have hlength : past.cycles.length = k := by rw [hpast, List.length_take_of_le hk.le]
  rw [lastSelected_arbiter, hlength]
  cases k with
  | zero => rfl
  | succ k => rw [slotBefore, slotBefore, hpast, List.getElem?_take_of_lt k.lt_succ_self]

theorem selectionLines_cycle :
    (past.cycle f d).selectionLines =
      if (past.cycle f d).arbiter.setpoint.valid = true ∧
          past.arbiter.lastSelected ≠ (past.cycle f d).publishedSlot then
        [LogLine.selection past.arbiter.lastSelected (past.cycle f d).publishedSlot]
      else [] := by
  have hkind : LogLine.isSelection ∘ ArbiterEvent.line = ArbiterEvent.isChange :=
    funext ArbiterEvent.isSelection_line
  have hslot : (past.cycle f d).publishedSlot = (past.arbiter.observe f).setpoint.slot :=
    (past.publishedSlot_cycle f d).trans (past.arbiter.slot_cycle f d)
  rw [selectionLines, List.filter_map, hkind, outcome, past.arbiter.changes_cycle f d, hslot,
    valid_cycle]
  split <;> rfl

theorem publishedSlot_eq_of_lines {run other c c' : History} {k : Nat}
    (h : run.cycles[k]? = some c) (h' : other.cycles[k]? = some c')
    (hbefore : run.slotBefore k = other.slotBefore k)
    (hvalid : c.arbiter.setpoint.valid = c'.arbiter.setpoint.valid)
    (hlines : c.selectionLines = c'.selectionLines) : c.publishedSlot = c'.publishedSlot := by
  have hmem := List.mem_of_getElem? h
  have hmem' := List.mem_of_getElem? h'
  cases hv : c.arbiter.setpoint.valid with
  | false =>
    rw [publishedSlot_of_lost hmem hv, publishedSlot_of_lost hmem' (hvalid ▸ hv)]
  | true =>
    obtain ⟨past, f, d, rfl⟩ := exists_cycle_of_mem run c hmem
    obtain ⟨past', f', d', rfl⟩ := exists_cycle_of_mem other c' hmem'
    rw [selectionLines_cycle, selectionLines_cycle, lastSelected_of_getElem? past f d h,
      lastSelected_of_getElem? past' f' d' h', ← hbefore, ← hvalid, hv] at hlines
    by_cases hsame : run.slotBefore k = (past.cycle f d).publishedSlot <;>
      by_cases hsame' : run.slotBefore k = (past'.cycle f' d').publishedSlot
    · exact hsame.symm.trans hsame'
    · rw [if_neg (fun h => h.2 hsame), if_pos ⟨rfl, hsame'⟩] at hlines
      cases hlines
    · rw [if_pos ⟨rfl, hsame⟩, if_neg (fun h => h.2 hsame')] at hlines
      cases hlines
    · rw [if_pos ⟨rfl, hsame⟩, if_pos ⟨rfl, hsame'⟩] at hlines
      exact (LogLine.selection_inj (List.head_eq_of_cons_eq hlines)).2

/-- A valid cycle logs one line, from the slot published before to its own, if these differ. Runs
with the same lines and the same lost cycles have published the same slots. -/
theorem selection_log_chain (run : History) :
    (∀ k c, run.cycles[k]? = some c →
      (c.arbiter.setpoint.valid = true →
        c.selectionLines =
          if run.slotBefore k = c.publishedSlot then []
          else [LogLine.selection (run.slotBefore k) c.publishedSlot]) ∧
      (c.arbiter.setpoint.valid = false → c.selectionLines = [])) ∧
    (∀ other : History,
      List.Forall₂ (fun c c' => c.arbiter.setpoint.valid = c'.arbiter.setpoint.valid ∧
        c.selectionLines = c'.selectionLines) run.cycles other.cycles →
      run.cycles.map publishedSlot = other.cycles.map publishedSlot) := by
  constructor
  · intro k c hk
    obtain ⟨past, f, d, rfl⟩ := exists_cycle_of_mem run c (List.mem_of_getElem? hk)
    rw [selectionLines_cycle, lastSelected_of_getElem? past f d hk]
    constructor
    · intro hvalid
      by_cases hsame : run.slotBefore k = (past.cycle f d).publishedSlot
      · rw [if_pos hsame, if_neg (fun h => h.2 hsame)]
      · rw [if_neg hsame, if_pos ⟨hvalid, hsame⟩]
    · intro hlost
      exact if_neg fun h => Bool.false_ne_true (hlost.symm.trans h.1)
  · intro other hlogs
    have hlength : run.cycles.length = other.cycles.length := hlogs.length_eq
    have hpair {k : Nat} (hk : k < run.cycles.length) (hk' : k < other.cycles.length) :=
      (List.forall₂_iff_get.mp hlogs).2 k hk hk'
    have hslot {k : Nat} (hk : k < run.cycles.length) (hk' : k < other.cycles.length)
        (hbefore : run.slotBefore k = other.slotBefore k) :
        run.cycles[k].publishedSlot = other.cycles[k].publishedSlot :=
      publishedSlot_eq_of_lines (List.getElem?_eq_getElem hk) (List.getElem?_eq_getElem hk') hbefore
        (hpair hk hk').1 (hpair hk hk').2
    -- Both runs come to each cycle with the same slot.
    have hbefore : ∀ k ≤ run.cycles.length, run.slotBefore k = other.slotBefore k := by
      intro k
      induction k with
      | zero => exact fun _ => rfl
      | succ k ih =>
        intro hk
        have hk' : k < other.cycles.length := hlength ▸ hk
        rw [slotBefore_succ (List.getElem?_eq_getElem hk),
          slotBefore_succ (List.getElem?_eq_getElem hk')]
        exact hslot hk hk' (ih (Nat.le_of_lt hk))
    refine List.ext_getElem (by simp [hlength]) fun k hk hk' => ?_
    rw [List.length_map] at hk hk'
    rw [List.getElem_map, List.getElem_map]
    exact hslot hk hk' (hbefore k hk.le)

def foundAgain (d : Downlink) : History :=
  (lostAgain .open).cycle
    { now := .ofMillis 800
      sample := fun _ => some { axes := .zero, timestamp := .ofMillis 790, source := .rc } }
    d

def foundUnheard : History := foundAgain { publish := fun _ => some .noSubscribers }

theorem selection_log_foundUnheard :
    (heardOnce.selectionLines = [LogLine.selection none (some 0)] ∧
      (lostAgain .open).selectionLines = [] ∧
      foundUnheard.selectionLines = [LogLine.selection none (some 0)]) ∧
    foundUnheard.cycles.map publishedSlot = (foundAgain .open).cycles.map publishedSlot := by
  obtain ⟨hlog, hslots⟩ := selection_log_chain foundUnheard
  have hcycles : foundUnheard.cycles =
      [silentAtFirst, heardOnce, lostAgain .open, foundUnheard] := rfl
  rw [hcycles] at hlog
  have hheard := (hlog 1 heardOnce rfl).1 (by decide +kernel)
  have hfound := (hlog 3 foundUnheard rfl).1 (by decide +kernel)
  have hbefore : foundUnheard.slotBefore 1 = none := by decide +kernel
  have hbefore' : foundUnheard.slotBefore 3 = none := by decide +kernel
  have hslot : heardOnce.publishedSlot = some 0 := by decide +kernel
  have hslot' : foundUnheard.publishedSlot = some 0 := by decide +kernel
  rw [hbefore, hslot] at hheard
  rw [hbefore', hslot'] at hfound
  refine ⟨⟨hheard, (hlog 2 (lostAgain .open) rfl).2 rfl, hfound⟩, hslots (foundAgain .open) ?_⟩
  refine .cons ⟨rfl, rfl⟩ (.cons ⟨rfl, rfl⟩ (.cons ⟨rfl, rfl⟩ (.cons ⟨?_, ?_⟩ .nil)))
  · decide +kernel
  · decide +kernel

end History

end StickArbiter
