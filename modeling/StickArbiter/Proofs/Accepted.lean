import StickArbiter.Settings.Read
import StickArbiter.Station.Opening

/-!
# Accepted settings

Settings that come from a text break no rule, so a gamepad among their sources repeats itself more
often than its slot times out.
-/

namespace StickArbiter

theorem ok_of_toOption {ε α : Type} {x : Except ε α} {a : α} (h : x.toOption = some a) :
    x = .ok a := by
  cases x with
  | error => cases h
  | ok => cases h; rfl

theorem exists_of_map_eq_ok {ε α β : Type} {x : Except ε α} {f : α → β} {b : β}
    (h : x.map f = .ok b) : ∃ a, x = .ok a ∧ f a = b := by
  cases x with
  | error => cases h
  | ok a => cases h; exact ⟨a, rfl, rfl⟩

theorem ok_of_mapError {ε ε' α : Type} {x : Except ε α} {f : ε → ε'} {a : α}
    (h : x.mapError f = .ok a) : x = .ok a := by
  cases x with
  | error => cases h
  | ok => cases h; rfl

theorem brokenIf_eq_nil {broken : Bool} {v : Violation} :
    brokenIf broken v = [] ↔ broken = false := by
  cases broken <;> simp [brokenIf]

namespace Settings

theorem entries_of_ofText {text : String} {s : Settings} (h : ofText text = .ok s) :
    ∃ es, Toml.read text.toList = .ok es ∧ Toml.Typed.fromEntries keys {} es = .ok s ∧
      s.violations = [] := by
  unfold ofText at h
  split at h
  next => cases h
  next es hes =>
    split at h
    next => cases h
    next read hread =>
      split at h
      next => cases h
      next hnone =>
        cases h
        exact ⟨es, hes, hread, List.head?_eq_none_iff.mp hnone⟩

theorem violations_of_ofText {text : String} {s : Settings} (h : ofText text = .ok s) :
    s.violations = [] := by
  obtain ⟨es, -, -, hs⟩ := entries_of_ofText h
  exact hs

theorem ofText_of_ofFile {file : Except IoFault (List UInt8)} {s : Settings}
    (h : ofFile file = .ok s) :
    ∃ bytes text, file = .ok bytes ∧ textOfBytes ⟨bytes.toArray⟩ = .ok text ∧
      ofText text = .ok s := by
  cases file with
  | error f => cases h
  | ok bytes =>
    simp only [ofFile, ofBytes] at h
    split at h
    next => cases h
    next text htext => exact ⟨bytes, text, rfl, htext, ok_of_mapError h⟩

theorem violations_of_ofFile {file : Except IoFault (List UInt8)} {s : Settings}
    (h : ofFile file = .ok s) : s.violations = [] := by
  obtain ⟨bytes, text, -, -, htext⟩ := ofText_of_ofFile h
  exact violations_of_ofText htext

variable {s : Settings} {source : SourceSettings}

theorem slotCount_of_accepted (h : s.violations = []) :
    s.sources.length ≤ s.arbitration.slotCount := by
  simp only [violations, List.append_eq_nil_iff, brokenIf_eq_nil, decide_eq_false_iff_not] at h
  exact Nat.le_of_not_lt h.1.2

theorem source_of_accepted (h : s.violations = []) (hmem : source ∈ s.sources) :
    ∃ slot, source.violations slot s.arbitration.lossTimeoutMs = [] := by
  simp only [violations, List.append_eq_nil_iff] at h
  obtain ⟨slot, hlt, rfl⟩ := List.mem_iff_getElem.mp hmem
  have hslot : (s.sources[slot], slot) ∈ s.sources.zipIdx :=
    List.mk_mem_zipIdx_iff_getElem?.mpr (List.getElem?_eq_getElem hlt)
  exact ⟨slot, List.flatMap_eq_nil_iff.mp h.2 _ hslot⟩

/-- A gamepad's interval lies between 1 ms and the timeout. -/
theorem interval_of_accepted (h : s.violations = []) (hmem : source ∈ s.sources)
    (hkind : source.kind = .joystick) :
    0 < source.republishIntervalMs ∧ source.republishIntervalMs < s.arbitration.lossTimeoutMs := by
  obtain ⟨slot, hsource⟩ := source_of_accepted h hmem
  simp only [SourceSettings.violations, List.append_eq_nil_iff, brokenIf_eq_nil] at hsource
  obtain ⟨-, hinterval⟩ := hsource
  simp [hkind] at hinterval
  omega

end Settings

end StickArbiter
