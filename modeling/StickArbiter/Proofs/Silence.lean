import Mathlib.Data.Finset.Card
import StickArbiter.Proofs.Interference
import StickArbiter.Proofs.Publication

/-!
# Silence

While neither samples nor parameters arrive, readings only grow old: a selected slot is kept while
it lives, and one that is dropped stays dead.
-/

namespace StickArbiter

/-- A cycle that is offered neither a sample for one of `count` slots nor parameters. -/
structure Feed.Silent (f : Feed) (count : Nat) : Prop where
  quiet : ¬ f.Offers count
  parameters : f.parameters = none

theorem Instant.since_mono {now later : Instant} (h : now ≤ later) (t : Instant) :
    now.since t ≤ later.since t := by
  rw [le_def] at h
  rw [Span.le_def, since_nanos, since_nanos]
  omega

namespace Selector

variable {s : Selector} {now : Instant} {slot : Nat}

theorem isLeast_of_selected_taken (f : Feed) (hmode : s.mode.isSticky = false)
    (hs : (s.taken f).selected = some slot) :
    IsLeast {k | (s.taken f).isLive f.now k = true} slot := by
  rw [taken_eq, selected_select] at hs
  rw [taken_eq]
  rcases choice?_cases (s.taking f s.slotCount) f.now with ⟨_, -, hsticky, -⟩ | ⟨-, hlow⟩
  · rw [(taking_frame s f _).1, hmode] at hsticky
    cases hsticky
  · rw [hlow] at hs
    exact (lowestLive?_eq_some_iff _ _ _).mp hs

theorem selected_select_of_live (hs : s.selected = some slot) (hlive : s.isLive now slot = true)
    (hleast : s.mode.isSticky = false → ∀ k, s.isLive now k = true → slot ≤ k) :
    (s.select now).selected = some slot := by
  rw [selected_select]
  rcases choice?_cases s now with ⟨k, hk, -, -, hchoice⟩ | ⟨hdrop, hlow⟩
  · rw [hchoice, ← hk, hs]
  · cases hmode : s.mode.isSticky with
    | true =>
      rw [hdrop slot hs hmode] at hlive
      cases hlive
    | false =>
      rw [hlow, lowestLive?_eq_some_iff]
      exact ⟨hlive, fun k hk => hleast hmode k hk⟩

end Selector

namespace History

/-- The histories that a sequence of cycles leads to, one after another. -/
def cycling (past : History) : List (Feed × Downlink) → List History
  | [] => []
  | (f, d) :: rest => past.cycle f d :: (past.cycle f d).cycling rest

/-- The slots live as the last move ended, if that was a cycle. -/
def liveSlots : History → Finset Nat
  | cycle past f _ =>
    {k ∈ Finset.range past.count | (past.arbiter.observe f).selector.isLive f.now k}
  | _ => ∅

variable {past : History} {f g : Feed} {d e : Downlink} {slot : Nat}

theorem mem_liveSlots_iff :
    slot ∈ (past.cycle f d).liveSlots ↔ (past.cycle f d).Live f.now slot := by
  unfold liveSlots
  rw [Finset.mem_filter, Finset.mem_range, past.isLive_observe_iff f d]
  exact ⟨fun h => h.2, fun h => ⟨h.1, h⟩⟩

theorem card_liveSlots_le (past : History) : past.liveSlots.card ≤ past.count := by
  unfold liveSlots
  split
  · exact (Finset.card_filter_le _ _).trans (Finset.card_range _).le
  · exact Nat.zero_le _

theorem mem_liveSlots_of_slot (h : (past.cycle f d).arbiter.setpoint.slot = some slot) :
    slot ∈ (past.cycle f d).liveSlots := by
  rw [mem_liveSlots_iff, ← past.isLive_observe_iff f d]
  exact Selector.isLive_of_selected ((past.arbiter.begin f).selector.settled_taken f)
    ((past.arbiter.slot_cycle f d).symm.trans h)

theorem liveSlots_eq_empty (h : (past.cycle f d).arbiter.setpoint.slot = none) :
    (past.cycle f d).liveSlots = ∅ := by
  have hslot : (past.cycle f d).arbiter.setpoint.slot = _ := past.arbiter.slot_cycle f d
  rw [hslot] at h
  refine Finset.eq_empty_of_forall_notMem fun k hk => ?_
  rw [mem_liveSlots_iff, ← past.isLive_observe_iff f d] at hk
  exact Selector.selected_ne_none ((past.arbiter.begin f).selector.settled_taken f) hk h

theorem valid_iff_liveSlots_nonempty :
    (past.cycle f d).arbiter.setpoint.valid = true ↔ (past.cycle f d).liveSlots.Nonempty := by
  rw [valid_cycle]
  refine (Selector.valid_iff_of_settled ((past.arbiter.begin f).selector.settled_taken f)).trans ?_
  exact exists_congr fun k => (past.isLive_observe_iff f d k).trans mem_liveSlots_iff.symm

/-! ## One silent cycle -/

/-- Nothing came to life since, and what was selected is selected while it lives. -/
structure Fades (c c' : History) : Prop where
  live : c'.liveSlots ⊆ c.liveSlots
  kept : ∀ slot ∈ c'.liveSlots, c.arbiter.setpoint.slot = some slot →
    c'.arbiter.setpoint.slot = some slot

theorem Fades.trans {a b c : History} (h : a.Fades b) (h' : b.Fades c) : a.Fades c :=
  ⟨h'.live.trans h.live, fun slot hlive hs => h'.kept slot hlive (h.kept slot (h'.live hlive) hs)⟩

theorem Fades.lost {past' : History} (h : (past.cycle f d).Fades (past'.cycle g e))
    (hlost : (past.cycle f d).arbiter.setpoint.valid = false) :
    (past'.cycle g e).arbiter.setpoint.valid = false := by
  by_contra hvalid
  rw [Bool.not_eq_false, valid_iff_liveSlots_nonempty] at hvalid
  have hlive := valid_iff_liveSlots_nonempty.mpr (hvalid.mono h.live)
  rw [hlost] at hlive
  cases hlive

theorem selector_of_silent (past : History) (hsilent : f.Silent past.count) :
    (past.arbiter.observe f).selector = past.arbiter.selector.select f.now := by
  have hbegin : (past.arbiter.begin f).selector = past.arbiter.selector := by
    unfold Arbiter.begin
    rw [hsilent.parameters]
  rw [Arbiter.selector_observe, hbegin]
  refine Selector.taken_of_quiet _ f ?_
  rw [past.slotCount_arbiter]
  exact hsilent.quiet

theorem last?_of_silent (hsilent : f.Silent past.count) (hslot : slot < past.count) :
    (past.cycle f d).last? slot = past.last? slot := by
  have hnone : f.sample slot = none := by
    by_contra hx
    exact hsilent.quiet ⟨slot, hslot, Option.isSome_iff_ne_none.mpr hx⟩
  simp only [last?, Feed.reading?, hnone, Option.map_none, Option.none_or]

theorem live_of_silent (hsilent : g.Silent past.count) (hle : f.now ≤ g.now)
    (h : ((past.cycle f d).cycle g e).Live g.now slot) : (past.cycle f d).Live f.now slot := by
  obtain ⟨hslot, r, hread, hvalid, haccepts, hage⟩ := h
  have hlast : ((past.cycle f d).cycle g e).last? slot = (past.cycle f d).last? slot :=
    last?_of_silent hsilent hslot
  rw [hlast] at hread
  rw [inEffect, hsilent.parameters, Option.getD_none] at haccepts hage
  refine ⟨hslot, r, hread, hvalid, haccepts, ?_⟩
  exact Nat.lt_of_le_of_lt (Instant.since_mono hle r.received) hage

theorem fades_of_silent (hsilent : g.Silent past.count) (hle : f.now ≤ g.now) :
    (past.cycle f d).Fades ((past.cycle f d).cycle g e) := by
  have hselector := (past.cycle f d).selector_of_silent hsilent
  have hlive (k : Nat) : (past.cycle f d).arbiter.selector.isLive g.now k = true →
      (past.cycle f d).Live f.now k := by
    intro hk
    rw [← Selector.isLive_select _ g.now, ← hselector, isLive_observe_iff _ g e] at hk
    exact live_of_silent hsilent hle hk
  constructor
  · intro k hk
    rw [mem_liveSlots_iff] at hk ⊢
    exact live_of_silent hsilent hle hk
  · intro k hk hs
    rw [mem_liveSlots_iff, ← isLive_observe_iff, hselector, Selector.isLive_select] at hk
    refine ((past.cycle f d).arbiter.slot_cycle g e).trans ?_
    rw [hselector]
    refine Selector.selected_select_of_live hs hk fun hmode j hj => ?_
    have hbegin : (past.arbiter.begin f).selector.mode = (past.cycle f d).inEffect.mode :=
      (Arbiter.configured_begin past.configured_arbiter f).mode
    rw [(past.cycle f d).configured_arbiter.mode, ← hbegin] at hmode
    have hleast := Selector.isLeast_of_selected_taken f hmode
      ((past.arbiter.slot_cycle f d).symm.trans hs)
    exact hleast.2 ((past.isLive_observe_iff f d j).mpr (hlive j hj))

/-! ## A silent sequence -/

/-- A cycle that may bring anything, and cycles at no earlier times that bring nothing. -/
structure Silence (past : History) (first : Feed × Downlink) (rest : List (Feed × Downlink)) :
    Prop where
  silent : ∀ g ∈ rest, g.1.Silent past.count
  ordered : (first :: rest).Pairwise fun a b => a.1.now ≤ b.1.now

variable {first next : Feed × Downlink} {rest : List (Feed × Downlink)}

theorem Silence.tail (h : past.Silence first (next :: rest)) :
    (past.cycle first.1 first.2).Silence next rest where
  silent g hg := h.silent g (List.mem_cons_of_mem _ hg)
  ordered := h.ordered.tail

theorem Silence.fades (h : past.Silence first (next :: rest)) :
    (past.cycle first.1 first.2).Fades ((past.cycle first.1 first.2).cycle next.1 next.2) :=
  fades_of_silent (h.silent next (by simp)) (List.rel_of_pairwise_cons h.ordered (by simp))

theorem mem_cycling {c : History} {steps : List (Feed × Downlink)} (h : c ∈ past.cycling steps) :
    ∃ (p : History) (f : Feed) (d : Downlink), c = p.cycle f d := by
  induction steps generalizing past with
  | nil => cases h
  | cons step steps ih =>
    rcases List.mem_cons.mp h with rfl | h
    · exact ⟨past, step.1, step.2, rfl⟩
    · exact ih h

theorem Silence.pairwise_fades (h : past.Silence first rest) :
    (past.cycling (first :: rest)).Pairwise Fades := by
  induction rest generalizing past first with
  | nil => exact List.pairwise_singleton _ _
  | cons next rest ih =>
    have htail := ih h.tail
    refine List.pairwise_cons.mpr ⟨fun c hc => ?_, htail⟩
    rcases List.mem_cons.mp hc with rfl | hc
    · exact h.fades
    · exact h.fades.trans (List.rel_of_pairwise_cons htail hc)

def changes : List (Option Nat) → Nat
  | a :: b :: rest => (if a = b then 0 else 1) + changes (b :: rest)
  | _ => 0

theorem card_liveSlots_lt (h : (past.cycle f d).Fades ((past.cycle f d).cycle g e))
    (hne : (past.cycle f d).arbiter.setpoint.slot ≠
      ((past.cycle f d).cycle g e).arbiter.setpoint.slot) :
    ((past.cycle f d).cycle g e).liveSlots.card < (past.cycle f d).liveSlots.card := by
  apply Finset.card_lt_card
  cases hs : (past.cycle f d).arbiter.setpoint.slot with
  | some k =>
    have hdropped : k ∉ ((past.cycle f d).cycle g e).liveSlots :=
      fun hk => hne (hs.trans (h.kept k hk hs).symm)
    exact ⟨h.live, fun hsub => hdropped (hsub (mem_liveSlots_of_slot hs))⟩
  | none =>
    cases hs' : ((past.cycle f d).cycle g e).arbiter.setpoint.slot with
    | none => exact absurd (hs.trans hs'.symm) hne
    | some k =>
      have hk := h.live (mem_liveSlots_of_slot hs')
      rw [liveSlots_eq_empty hs] at hk
      cases hk

theorem Silence.changes_le (h : past.Silence first rest) :
    changes ((past.cycling (first :: rest)).map (·.arbiter.setpoint.slot)) ≤
      (past.cycle first.1 first.2).liveSlots.card := by
  induction rest generalizing past first with
  | nil => exact Nat.zero_le _
  | cons next rest ih =>
    have htail := ih h.tail
    simp only [cycling, List.map_cons, changes] at htail ⊢
    split
    · have hle := Finset.card_le_card h.fades.live
      omega
    · have hlt := card_liveSlots_lt h.fades ‹_›
      omega

theorem countP_published :
    (past.cycle f d).published.countP (fun sp => !sp.valid) =
      if (past.cycle f d).arbiter.setpoint.valid = false ∧ past.arbiter.phase = .tracking then 1
      else 0 := by
  rw [published_cycle]
  cases hv : (past.cycle f d).arbiter.setpoint.valid <;> cases past.arbiter.phase <;> simp [hv]

theorem Silence.notices_le (h : past.Silence first rest) :
    ((past.cycling (first :: rest)).flatMap published).countP (fun sp => !sp.valid) ≤
      if (past.cycle first.1 first.2).arbiter.setpoint.valid = true ∨
        past.arbiter.phase = .tracking then 1 else 0 := by
  induction rest generalizing past first with
  | nil =>
    simp only [cycling, List.flatMap_cons, List.flatMap_nil, List.append_nil, countP_published]
    split <;> split <;> simp_all
  | cons next rest ih =>
    have htail := ih h.tail
    rw [cycling, List.flatMap_cons, List.countP_append, countP_published]
    cases hvalid : (past.cycle first.1 first.2).arbiter.setpoint.valid with
    | true =>
      refine le_trans (Nat.add_le_add_left htail _) ?_
      rw [if_neg (by simp), if_pos (Or.inl rfl), Nat.zero_add]
      split <;> omega
    | false =>
      have hphase : (past.cycle first.1 first.2).arbiter.phase = .lossAnnounced := by
        refine (past.arbiter.phase_cycle first.1 first.2).trans ?_
        rw [← valid_cycle _ _ first.2, hvalid, if_neg (by decide)]
      have hlost := h.fades.lost hvalid
      rw [if_neg (by simp [hphase, hlost]), Nat.le_zero] at htail
      rw [htail]
      simp

theorem lost_of_expired
    (h : ∀ slot < past.count, ∀ r, (past.cycle f d).last? slot = some r →
      r.received.micros * 1000 + (past.cycle f d).inEffect.lossTimeout.nanos ≤
        f.now.micros * 1000) :
    (past.cycle f d).arbiter.setpoint.valid = false := by
  by_contra hvalid
  rw [Bool.not_eq_false, valid_iff_liveSlots_nonempty] at hvalid
  obtain ⟨k, hk⟩ := hvalid
  obtain ⟨hslot, r, hread, -, -, hage⟩ := mem_liveSlots_iff.mp hk
  have hexpired := h k hslot r hread
  rw [Span.lt_def, Instant.since_nanos] at hage
  omega

/-- In silence the input only degrades. What was there before the first cycle is not compared with
it, since a host may put parameters into effect or turn the clock back in between: a state that a
cycle left is compared by taking that cycle first. -/
theorem silence_degrades (past : History) (first : Feed × Downlink)
    (rest : List (Feed × Downlink)) (h : past.Silence first rest) :
    let cs := past.cycling (first :: rest)
    cs.Pairwise (fun c c' => c'.liveSlots ⊆ c.liveSlots) ∧
    cs.Pairwise (fun c c' => c.arbiter.setpoint.valid = false →
      c'.arbiter.setpoint.valid = false) ∧
    (∀ (c c' c'' : History) (slot : Nat), [c, c', c''].Sublist cs →
      c.arbiter.setpoint.slot = some slot → c'.arbiter.setpoint.slot ≠ some slot →
      c''.arbiter.setpoint.slot ≠ some slot) ∧
    changes (cs.map (·.arbiter.setpoint.slot)) ≤ past.count ∧
    (cs.flatMap published).countP (fun sp => !sp.valid) ≤ 1 ∧
    ∀ (p : History) (f : Feed) (d : Downlink), p.cycle f d ∈ cs →
      (∀ slot < p.count, ∀ r, (p.cycle f d).last? slot = some r →
        r.received.micros * 1000 + (p.cycle f d).inEffect.lossTimeout.nanos ≤
          f.now.micros * 1000) →
      (p.cycle f d).arbiter.setpoint.valid = false := by
  intro cs
  have hfades : cs.Pairwise Fades := h.pairwise_fades
  refine ⟨hfades.imp Fades.live, ?_, ?_, ?_, ?_, ?_⟩
  · refine hfades.imp_of_mem fun {c c'} hc hc' hcc' hlost => ?_
    obtain ⟨p, f, d, rfl⟩ := mem_cycling hc
    obtain ⟨p', f', d', rfl⟩ := mem_cycling hc'
    exact hcc'.lost hlost
  · intro c c' c'' slot hsub hs hs' hs''
    obtain ⟨p, f, d, rfl⟩ := mem_cycling (hsub.subset (by simp : c'' ∈ _))
    obtain ⟨hhead, htail⟩ := List.pairwise_cons.mp (hfades.sublist hsub)
    have hlive := (List.rel_of_pairwise_cons htail (by simp)).live (mem_liveSlots_of_slot hs'')
    exact hs' ((hhead c' (by simp)).kept slot hlive hs)
  · exact h.changes_le.trans (past.cycle first.1 first.2).card_liveSlots_le
  · refine h.notices_le.trans ?_
    split <;> omega
  · exact fun p f d _ => lost_of_expired

def zeroHeard : History :=
  .cycle (.create 2 { mode := .priority } defaultPollInterval) (hearing .zero 0) .open

def silentAt (n : Nat) : Feed × Downlink := ({ now := .ofMillis n }, .open)

theorem silence_zeroHeard :
    zeroHeard.Silence (hearing (.ofMillis 100) 1, .open) [silentAt 550, silentAt 700] := by
  constructor
  · simp only [List.forall_mem_cons, List.not_mem_nil, false_implies, implies_true, and_true]
    exact ⟨⟨by rintro ⟨_, -, ⟨⟩⟩, rfl⟩, ⟨by rintro ⟨_, -, ⟨⟩⟩, rfl⟩⟩
  · simp only [List.pairwise_cons, List.forall_mem_cons]
    decide

theorem silence_degrades_zeroHeard :
    let cs := zeroHeard.cycling [(hearing (.ofMillis 100) 1, .open), silentAt 550, silentAt 700]
    cs.map (·.arbiter.setpoint.slot) = [some 0, some 1, none] ∧
      changes (cs.map (·.arbiter.setpoint.slot)) ≤ 2 := by
  obtain ⟨-, -, -, hchanges, -⟩ := silence_degrades zeroHeard _ _ silence_zeroHeard
  exact ⟨by decide +kernel, hchanges⟩

end History

end StickArbiter
