import Mathlib.Data.List.Nodup
import Mathlib.Data.String.Basic
import StickArbiter.Gamepad.Device

/-!
# Finding the controller

Which of the devices in a directory is found is told by the paths of those that qualify, not by the
order in which they are listed.
-/

namespace StickArbiter.Gamepad

/-! ## Names and paths -/

namespace Device

theorem name_of_path {d : Device} {name : String} (h : '/' ∉ name.toList)
    (hpath : d.path = inputDirectory ++ "/" ++ name) : d.name = name.toList := by
  have hname : ∀ c ∈ name.toList.reverse, decide (c ≠ '/') = true := fun c hc =>
    decide_eq_true fun heq => h (heq ▸ List.mem_reverse.mp hc)
  have hslash : (inputDirectory ++ "/").toList.reverse.takeWhile (· ≠ '/') = [] := by decide
  unfold Device.name
  rw [hpath, String.toList_append, List.reverse_append, List.takeWhile_append_of_pos hname, hslash,
    List.append_nil, List.reverse_reverse]

theorem before_iff {a b : Device} : a.before b = true ↔ a.path ≤ b.path := by
  unfold before
  rw [decide_eq_true_eq]
  rfl

theorem before_total (a b : Device) : a.before b = true ∨ b.before a = true := by
  rw [before_iff, before_iff]
  exact le_total _ _

theorem before_trans (a b c : Device) (hab : a.before b = true) (hbc : b.before c = true) :
    a.before c = true := by
  rw [before_iff] at *
  exact hab.trans hbc

structure Detectable (d : Device) : Prop where
  named : ∃ rest : String, d.path = inputDirectory ++ "/event" ++ rest
  opens : d.openFault = none
  vendor : d.vendor = 0x054c
  product : d.product = 0x0ce6

end Device

/-- What a directory of input devices may list. -/
structure IsListing (listed : List Device) : Prop where
  named : ∀ d ∈ listed, ∃ name : String, '/' ∉ name.toList ∧
    d.path = inputDirectory ++ "/" ++ name
  nodup : (listed.map Device.path).Nodup

namespace IsListing

variable {listed : List Device}

theorem perm {other : List Device} (h : IsListing listed) (hperm : listed.Perm other) :
    IsListing other where
  named d hd := h.named d (hperm.mem_iff.mpr hd)
  nodup := (hperm.map Device.path).nodup_iff.mp h.nodup

theorem sendsEvents_iff (h : IsListing listed) {d : Device} (hd : d ∈ listed) :
    d.sendsEvents = true ↔ ∃ rest, d.path = inputDirectory ++ "/event" ++ rest := by
  obtain ⟨name, hname, hpath⟩ := h.named d hd
  have hcancel (rest : String) : d.path = inputDirectory ++ "/event" ++ rest ↔
      "event".toList ++ rest.toList = name.toList := by
    have hevent : "/event" = "/" ++ "event" := rfl
    rw [hpath, hevent, ← String.toList_inj, eq_comm]
    simp only [String.toList_append, List.append_assoc, List.append_cancel_left_eq]
  unfold Device.sendsEvents
  rw [Device.name_of_path hname hpath, List.isPrefixOf_iff_prefix, exists_congr hcancel]
  constructor
  · rintro ⟨rest, hrest⟩
    exact ⟨String.ofList rest, (congrArg _ String.toList_ofList).trans hrest⟩
  · rintro ⟨rest, hrest⟩
    exact ⟨rest.toList, hrest⟩

theorem detectable_iff (h : IsListing listed) {d : Device} (hd : d ∈ listed) :
    d.sendsEvents = true ∧ d.suits = true ↔ d.Detectable := by
  unfold Device.suits Device.isController
  rw [h.sendsEvents_iff hd, Bool.and_eq_true, Option.isNone_iff_eq_none, Bool.and_eq_true,
    decide_eq_true_eq, decide_eq_true_eq]
  exact ⟨fun ⟨hnamed, hopens, hvendor, hproduct⟩ => ⟨hnamed, hopens, hvendor, hproduct⟩,
    fun ⟨hnamed, hopens, hvendor, hproduct⟩ => ⟨hnamed, hopens, hvendor, hproduct⟩⟩

theorem eq_of_path_eq (h : IsListing listed) {a b : Device} (ha : a ∈ listed) (hb : b ∈ listed)
    (hpath : a.path = b.path) : a = b := List.inj_on_of_nodup_map h.nodup ha hb hpath

/-- A search ends at the device with the least path of all that may be found. -/
theorem found_iff (h : IsListing listed) (d : Device) :
    (search (Devices.candidates listed)).result = some d ↔
      d ∈ listed ∧ d.Detectable ∧ ∀ e ∈ listed, e.Detectable → d.path ≤ e.path := by
  have hantisymm : ∀ a ∈ listed, ∀ b ∈ listed, a.before b = true → b.before a = true → a = b := by
    intro a ha b hb hab hba
    rw [Device.before_iff] at hab hba
    exact h.eq_of_path_eq ha hb (hab.antisymm hba)
  unfold Devices.candidates
  rw [search_result, List.find?_filter,
    Sorted.find?_ofList_eq_some_iff Device.before_total Device.before_trans hantisymm]
  simp only [decide_eq_true_eq, Device.before_iff]
  refine and_congr_right fun hd => and_congr (h.detectable_iff hd) ?_
  exact forall₂_congr fun e he => imp_congr_left (h.detectable_iff he)

theorem not_found_iff (h : IsListing listed) :
    (search (Devices.candidates listed)).result = none ↔ ∀ d ∈ listed, ¬ d.Detectable := by
  unfold Devices.candidates
  rw [search_result, List.find?_filter, List.find?_eq_none]
  simp only [Sorted.mem_ofList, decide_eq_true_eq]
  exact forall₂_congr fun e he => not_congr (h.detectable_iff he)

end IsListing

/-! ## What is found -/

namespace Devices

def Lists (ds : Devices) (listed : List Device) : Prop :=
  ds.listed = .ok listed ∧ ds.entryFault = none

/-- A directory that cannot be read, or not to its end. -/
def Unreadable (ds : Devices) (e : Fault) : Prop :=
  (∃ f, ds.listed = .error f ∧ e = .notListed f) ∨
    ∃ listed f, ds.listed = .ok listed ∧ ds.entryFault = some f ∧ e = .entryNotRead f

variable {ds : Devices} {listed : List Device}

theorem lists_or_unreadable (ds : Devices) :
    (∃ listed, ds.Lists listed) ∨ ∃ e, ds.Unreadable e := by
  unfold Lists Unreadable
  cases hlisted : ds.listed with
  | error f => exact .inr ⟨_, .inl ⟨f, rfl, rfl⟩⟩
  | ok listed =>
    cases hentry : ds.entryFault with
    | some f => exact .inr ⟨_, .inr ⟨listed, f, rfl, rfl, rfl⟩⟩
    | none => exact .inl ⟨listed, rfl, rfl⟩

theorem Unreadable.find_eq {e : Fault} (h : ds.Unreadable e) :
    ds.find.result = .error e ∧ e ≠ .noController := by
  unfold find
  rcases h with ⟨f, hf, rfl⟩ | ⟨listed, f, hlisted, hf, rfl⟩
  · rw [hf]
    exact ⟨rfl, nofun⟩
  · rw [hlisted, hf]
    exact ⟨rfl, nofun⟩

theorem Lists.find_eq (h : ds.Lists listed) :
    ds.find.result = (search (candidates listed)).result.elim (.error .noController) .ok := by
  unfold find
  rw [h.1, h.2]

theorem Lists.find_eq_ok_iff (hlists : ds.Lists listed) (h : IsListing listed) (d : Device) :
    ds.find.result = .ok d ↔
      d ∈ listed ∧ d.Detectable ∧ ∀ e ∈ listed, e.Detectable → d.path ≤ e.path := by
  rw [← h.found_iff, hlists.find_eq]
  cases (search (candidates listed)).result <;> simp

theorem Lists.find_eq_noController_iff (hlists : ds.Lists listed) (h : IsListing listed) :
    ds.find.result = .error .noController ↔ ∀ d ∈ listed, ¬ d.Detectable := by
  rw [← h.not_found_iff, hlists.find_eq]
  cases (search (candidates listed)).result <;> simp

theorem Lists.error_eq (hlists : ds.Lists listed) {e : Fault} (h : ds.find.result = .error e) :
    e = .noController := by
  rw [hlists.find_eq] at h
  cases hfound : (search (candidates listed)).result with
  | none =>
    rw [hfound] at h
    exact (Except.error.inj h).symm
  | some d =>
    rw [hfound] at h
    cases h

theorem Lists.find_congr {ds' : Devices} {listed' : List Device} (hlists : ds.Lists listed)
    (h : IsListing listed) (hlists' : ds'.Lists listed') (h' : IsListing listed')
    (hsame : ∀ d : Device, d.Detectable → (d ∈ listed' ↔ d ∈ listed)) :
    ds'.find.result = ds.find.result := by
  cases hfind : ds.find.result with
  | ok d =>
    obtain ⟨hmem, hd, hleast⟩ := (hlists.find_eq_ok_iff h d).mp hfind
    refine (hlists'.find_eq_ok_iff h' d).mpr ⟨(hsame d hd).mpr hmem, hd, fun e he hdetectable => ?_⟩
    exact hleast e ((hsame e hdetectable).mp he) hdetectable
  | error e =>
    obtain rfl := hlists.error_eq hfind
    have hnone := (hlists.find_eq_noController_iff h).mp hfind
    exact (hlists'.find_eq_noController_iff h').mpr fun d hd hdetectable =>
      hnone d ((hsame d hdetectable).mp hd) hdetectable

/-- Without a path the device with the least path is opened of those that qualify. Neither the order
of the directory counts nor what else is in it. -/
theorem openDevice_finds_least (ds : Devices) (h : ∀ listed, ds.Lists listed → IsListing listed) :
    let result := (ds.openDevice "").result
    (∀ d, result = .ok d ↔ ∃ listed, ds.Lists listed ∧
      d ∈ listed ∧ d.Detectable ∧ ∀ e ∈ listed, e.Detectable → d.path ≤ e.path) ∧
    (result = .error .noController ↔
      ∃ listed, ds.Lists listed ∧ ∀ d ∈ listed, ¬ d.Detectable) ∧
    (∀ e, result = .error e ∧ e ≠ .noController ↔ ds.Unreadable e) ∧
    ∀ (ds' : Devices) (listed listed' : List Device), IsListing listed' →
      ds.Lists listed → ds'.Lists listed' →
      (∀ d : Device, d.Detectable → (d ∈ listed' ↔ d ∈ listed)) →
      (ds'.openDevice "").result = result := by
  intro result
  have hresult : result = ds.find.result := rfl
  rw [hresult]
  refine ⟨fun d => ⟨fun hfind => ?_, fun ⟨listed, hlists, hleast⟩ => ?_⟩,
    ⟨fun hfind => ?_, fun ⟨listed, hlists, hnone⟩ => ?_⟩,
    fun e => ⟨fun ⟨hfind, hne⟩ => ?_, Unreadable.find_eq⟩,
    fun ds' listed listed' h' hlists hlists' hsame =>
      hlists.find_congr (h _ hlists) hlists' h' hsame⟩
  · rcases lists_or_unreadable ds with ⟨listed, hlists⟩ | ⟨e, he⟩
    · exact ⟨listed, hlists, (hlists.find_eq_ok_iff (h _ hlists) d).mp hfind⟩
    · cases hfind.symm.trans he.find_eq.1
  · exact (hlists.find_eq_ok_iff (h _ hlists) d).mpr hleast
  · rcases lists_or_unreadable ds with ⟨listed, hlists⟩ | ⟨e, he⟩
    · exact ⟨listed, hlists, (hlists.find_eq_noController_iff (h _ hlists)).mp hfind⟩
    · cases he.find_eq.1.symm.trans hfind
      exact absurd rfl he.find_eq.2
  · exact (hlists.find_eq_noController_iff (h _ hlists)).mpr hnone
  · rcases lists_or_unreadable ds with ⟨listed, hlists⟩ | ⟨e', he'⟩
    · exact absurd (hlists.error_eq hfind) hne
    · cases he'.find_eq.1.symm.trans hfind
      exact he'

/-- Two controllers, a third that does not open, and other things. -/
def crowded : List Device :=
  [{ path := "/dev/input/event2" }, { path := "/dev/input/js0" },
    { path := "/dev/input/event1", openFault := some .denied },
    { path := "/dev/input/event10" }, { path := "/dev/input/event0", vendor := 0x045e }]

theorem isListing_crowded : IsListing crowded where
  named := by
    simp only [crowded, List.forall_mem_cons]
    exact ⟨⟨"event2", by decide, rfl⟩, ⟨"js0", by decide, rfl⟩, ⟨"event1", by decide, rfl⟩,
      ⟨"event10", by decide, rfl⟩, ⟨"event0", by decide, rfl⟩, nofun⟩
  nodup := by decide

theorem openDevice_crowded :
    (∀ listed, Lists { listed := .ok crowded } listed → IsListing listed) ∧
    (openDevice { listed := .ok crowded } "").result = .ok { path := "/dev/input/event10" } ∧
    (openDevice { listed := .ok crowded.reverse } "").result =
      .ok { path := "/dev/input/event10" } := by
  have hlisting (listed : List Device) (hlists : Lists { listed := .ok crowded } listed) :
      IsListing listed := Except.ok.inj hlists.1 ▸ isListing_crowded
  have hreverse : IsListing crowded.reverse := isListing_crowded.perm crowded.reverse_perm.symm
  have hleast : ∀ e ∈ crowded, e.Detectable → "/dev/input/event10" ≤ e.path := by
    simp only [crowded, List.forall_mem_cons]
    refine ⟨fun _ => by decide, fun _ => by decide, fun hfails => ?_, fun _ => by decide,
      fun hother => ?_, nofun⟩
    · cases hfails.opens
    · cases hother.vendor
  obtain ⟨hfound, -, -, hsame⟩ := openDevice_finds_least { listed := .ok crowded } hlisting
  have hresult := (hfound { path := "/dev/input/event10" }).mpr
    ⟨crowded, ⟨rfl, rfl⟩, by decide, ⟨⟨"10", rfl⟩, rfl, rfl, rfl⟩, hleast⟩
  refine ⟨hlisting, hresult, ?_⟩
  exact (hsame { listed := .ok crowded.reverse } crowded crowded.reverse hreverse ⟨rfl, rfl⟩
    ⟨rfl, rfl⟩ fun d _ => List.mem_reverse).trans hresult

end Devices

end StickArbiter.Gamepad
