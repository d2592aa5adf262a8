import Mathlib.Data.Finset.Max
import Mathlib.Data.String.Basic
import StickArbiter.Proofs.Retention

/-!
# Whether the file that is written to is kept

Old files are removed by their names alone, so the file just opened goes with them if enough names
stand after its own.
-/

namespace StickArbiter

/-! ## The last elements of a set -/

section

variable {α : Type} [LinearOrder α] {k : Nat} {s : Finset α} {a x : α} {l : List α}

/-- The elements of a set below fewer than `k` others. -/
def newest (k : Nat) (s : Finset α) : Finset α := s.filter fun a => (s.filter (a < ·)).card < k

theorem mem_newest : x ∈ newest k s ↔ x ∈ s ∧ (s.filter (x < ·)).card < k := Finset.mem_filter

theorem mem_newest_of_lt {y : α} (hx : x ∈ newest k s) (hy : y ∈ s) (hxy : x < y) :
    y ∈ newest k s := by
  refine mem_newest.mpr ⟨hy, lt_of_le_of_lt (Finset.card_le_card fun z hz => ?_)
    (mem_newest.mp hx).2⟩
  obtain ⟨hzs, hyz⟩ := Finset.mem_filter.mp hz
  exact Finset.mem_filter.mpr ⟨hzs, hxy.trans hyz⟩

theorem le_card_above (hx : x ∈ s) (hnew : x ∉ newest k s) :
    k ≤ ((newest k s).filter (x < ·)).card := by
  -- Above the greatest of the elements left out there are the last ones only.
  obtain ⟨m, hm, hmax⟩ := (s.filter (· ∉ newest k s)).exists_max_image id
    ⟨x, Finset.mem_filter.mpr ⟨hx, hnew⟩⟩
  obtain ⟨hms, hmnew⟩ := Finset.mem_filter.mp hm
  have hxm : x ≤ m := hmax x (Finset.mem_filter.mpr ⟨hx, hnew⟩)
  have hmany : k ≤ (s.filter (m < ·)).card := by
    by_contra hfew
    exact hmnew (mem_newest.mpr ⟨hms, not_le.mp hfew⟩)
  refine hmany.trans (Finset.card_le_card fun z hz => ?_)
  obtain ⟨hzs, hmz⟩ := Finset.mem_filter.mp hz
  refine Finset.mem_filter.mpr ⟨?_, hxm.trans_lt hmz⟩
  by_contra hznew
  exact absurd (hmax z (Finset.mem_filter.mpr ⟨hzs, hznew⟩)) (not_le.mpr hmz)

theorem newest_subset : newest k s ⊆ s := Finset.filter_subset _ _

theorem newest_insert_newest (k : Nat) (a : α) (s : Finset α) :
    newest k (insert a (newest k s)) = newest k (insert a s) := by
  ext x
  rw [mem_newest, mem_newest]
  constructor
  · rintro ⟨hx, hfew⟩
    refine ⟨Finset.insert_subset_insert a newest_subset hx, ?_⟩
    by_contra hmany
    -- Something above `x` was left out, so `k` others above it were not.
    have hleft : ∃ y ∈ s, x < y ∧ y ∉ newest k s := by
      by_contra hnone
      push Not at hnone
      refine hmany (lt_of_le_of_lt (Finset.card_le_card fun y hy => ?_) hfew)
      obtain ⟨hys, hxy⟩ := Finset.mem_filter.mp hy
      refine Finset.mem_filter.mpr ⟨?_, hxy⟩
      rcases Finset.mem_insert.mp hys with rfl | hys
      · exact Finset.mem_insert_self _ _
      · exact Finset.mem_insert_of_mem (hnone y hys hxy)
    obtain ⟨y, hys, hxy, hynew⟩ := hleft
    refine absurd hfew (not_lt.mpr ((le_card_above hys hynew).trans ?_))
    refine Finset.card_le_card fun z hz => ?_
    obtain ⟨hznew, hyz⟩ := Finset.mem_filter.mp hz
    exact Finset.mem_filter.mpr ⟨Finset.mem_insert_of_mem hznew, hxy.trans hyz⟩
  · rintro ⟨hx, hfew⟩
    have hless : ∀ t ⊆ insert a s, (t.filter (x < ·)).card < k := fun t ht =>
      lt_of_le_of_lt (Finset.card_le_card (Finset.filter_subset_filter _ ht)) hfew
    refine ⟨?_, hless _ (Finset.insert_subset_insert a newest_subset)⟩
    rcases Finset.mem_insert.mp hx with rfl | hxs
    · exact Finset.mem_insert_self _ _
    · exact Finset.mem_insert_of_mem
        (mem_newest.mpr ⟨hxs, hless _ (Finset.subset_insert a s)⟩)

theorem mem_take_iff (h : l.Pairwise (· < ·)) :
    x ∈ l.take (l.length - k) ↔ x ∈ l ∧ k ≤ (l.filter (x < ·)).length := by
  induction l with
  | nil => simp
  | cons a l ih =>
    obtain ⟨hfirst, hrest⟩ := List.pairwise_cons.mp h
    by_cases hk : k ≤ l.length
    · rw [List.length_cons, Nat.succ_sub hk, List.take_succ_cons, List.mem_cons, ih hrest,
        List.mem_cons]
      rcases eq_or_ne x a with rfl | hne
      · have hall : (x :: l).filter (x < ·) = l := by
          rw [List.filter_cons_of_neg (by simp), List.filter_eq_self]
          simpa using hfirst
        simp [hall, hk]
      · simp only [hne, false_or]
        refine and_congr_right fun hx => ?_
        rw [List.filter_cons_of_neg (by simpa using (hfirst x hx).le)]
    · have hfew : ((a :: l).filter (x < ·)).length ≤ l.length + 1 := List.length_filter_le _ _
      have hnone : (a :: l).length - k = 0 := by
        rw [List.length_cons]
        omega
      rw [hnone, List.take_zero]
      refine iff_of_false List.not_mem_nil fun hx => ?_
      have hstrict : ((a :: l).filter (x < ·)).length < (a :: l).length := by
        rw [List.length_filter_lt_length_iff_exists]
        exact ⟨x, hx.1, by simp⟩
      rw [List.length_cons] at hstrict
      omega

end

/-! ## Folders -/

namespace Folder

/-- No two entries have one name. -/
def Proper (f : Folder) : Prop := (f.held.map Prod.fst).Nodup

variable {f g : Folder} {name line : String} {e : Entry}

theorem Proper.holds_iff (h : f.Proper) :
    f.entry? name = some e ↔ (name, e) ∈ f.held := by
  unfold Proper at h
  unfold entry?
  generalize f.held = es at h ⊢
  induction es with
  | nil => simp
  | cons d es ih =>
    obtain ⟨n, d⟩ := d
    rw [List.map_cons, List.nodup_cons] at h
    rw [List.lookup_cons, List.mem_cons, Prod.mk.injEq]
    by_cases hname : name = n
    · subst hname
      have hnone : (name, e) ∉ es := fun hmem =>
        h.1 (List.mem_map.mpr ⟨(name, e), hmem, rfl⟩)
      simp [hnone, eq_comm]
    · rw [beq_eq_false_iff_ne.mpr hname, ih h.2]
      simp [hname]

theorem mem_filesIn :
    name ∈ Journal.filesIn f ↔
      Journal.ownsName name = true ∧ ∃ lines, (name, Entry.file lines) ∈ f.held := by
  unfold Journal.filesIn fileNames
  rw [Sorted.mem_ofList, List.mem_filter, List.mem_filterMap, and_comm]
  refine and_congr_right fun _ => ⟨?_, ?_⟩
  · rintro ⟨⟨n, e⟩, hmem, hname⟩
    cases e with
    | folder => cases hname
    | file lines =>
      cases hname
      exact ⟨lines, hmem⟩
  · rintro ⟨lines, hmem⟩
    exact ⟨_, hmem, rfl⟩

theorem fileNames_sublist (f : Folder) : f.fileNames.Sublist (f.held.map Prod.fst) := by
  unfold fileNames
  generalize f.held = es
  induction es with
  | nil => exact List.Sublist.refl _
  | cons d es ih =>
    obtain ⟨n, d⟩ := d
    cases d with
    | folder => exact ih.cons n
    | file lines => exact ih.cons_cons n

theorem Proper.filesIn_ordered (h : f.Proper) : (Journal.filesIn f).Pairwise (· < ·) := by
  have hnodup : (Journal.filesIn f).Nodup :=
    (Sorted.perm_ofList _ _).nodup_iff.mpr
      ((h.sublist f.fileNames_sublist).filter Journal.ownsName)
  have hsorted : (Journal.filesIn f).Pairwise (nameBefore · · = true) :=
    Sorted.pairwise_ofList (fun a b => by simpa [nameBefore_iff] using le_total a b)
      (fun a b c => by simpa [nameBefore_iff] using fun h₁ h₂ => le_trans h₁ h₂) _
  exact (hsorted.and hnodup).imp fun ⟨hle, hne⟩ => lt_of_le_of_ne (nameBefore_iff.mp hle) hne

theorem Proper.create (h : f.Proper) (howned : Journal.ownsName name = true)
    (hcreate : f.create name = .ok g) :
    g.Proper ∧ (Journal.filesIn g).toFinset = insert name (Journal.filesIn f).toFinset := by
  unfold Folder.create at hcreate
  split at hcreate
  next => cases hcreate
  next es hes =>
    have hheld : f.held = es := by simp [held, hes]
    split at hcreate
    next hnone =>
      cases hcreate
      have hnew : ∀ e ∈ es, e.1 ≠ name := fun e he =>
        (bne_iff_ne.mp (List.lookup_eq_none_iff.mp hnone e he)).symm
      refine ⟨?_, ?_⟩
      · unfold Proper at h ⊢
        rw [hheld] at h
        change ((es ++ [(name, Entry.file [])]).map Prod.fst).Nodup
        rw [List.map_append, List.nodup_append]
        refine ⟨h, List.nodup_singleton _, ?_⟩
        intro n hn m hm
        obtain ⟨e, he, rfl⟩ := List.mem_map.mp hn
        rw [List.map_singleton, List.mem_singleton] at hm
        exact hm ▸ hnew e he
      · ext n
        rw [Finset.mem_insert, List.mem_toFinset, List.mem_toFinset, mem_filesIn, mem_filesIn,
          hheld]
        change _ ∧ (∃ lines, _ ∈ es ++ [(name, Entry.file [])]) ↔ _
        grind
    next lines hfile =>
      cases hcreate
      have hmem : (name, Entry.file lines) ∈ f.held := by
        rw [← h.holds_iff]
        unfold entry?
        rwa [hheld]
      refine ⟨h, (Finset.insert_eq_of_mem ?_).symm⟩
      exact List.mem_toFinset.mpr (mem_filesIn.mpr ⟨howned, lines, hmem⟩)
    next => cases hcreate

theorem append_held (f : Folder) (name line : String) :
    (f.append name line).held = f.held.map (extended name line) := by
  obtain ⟨entries⟩ := f
  cases entries with
  | none => rfl
  | some es =>
    rw [append_eq]
    rfl

theorem Proper.append (h : f.Proper) (name line : String) : (f.append name line).Proper := by
  unfold Proper at h ⊢
  rw [append_held, List.map_map]
  exact h

theorem mem_append_iff {n : String} :
    (∃ lines, (n, Entry.file lines) ∈ (f.append name line).held) ↔
      ∃ lines, (n, Entry.file lines) ∈ f.held := by
  rw [append_held]
  simp only [List.mem_map]
  constructor
  · rintro ⟨lines, ⟨m, e⟩, hmem, heq⟩
    cases e with
    | folder => simp [extended] at heq
    | file earlier =>
      obtain rfl : m = n := congrArg Prod.fst heq
      exact ⟨earlier, hmem⟩
  · rintro ⟨lines, hmem⟩
    by_cases hname : n = name
    · exact ⟨lines ++ [line], (n, .file lines), hmem, by simp [extended, hname]⟩
    · exact ⟨lines, (n, .file lines), hmem, extended_of_ne hname⟩

theorem filesIn_append (f : Folder) (name line : String) :
    (Journal.filesIn (f.append name line)).toFinset = (Journal.filesIn f).toFinset := by
  ext n
  rw [List.mem_toFinset, List.mem_toFinset, mem_filesIn, mem_filesIn, mem_append_iff]

theorem Proper.holds_append (h : f.Proper) (howned : Journal.ownsName name = true) :
    (∃ lines, entry? (f.append name line) name = some (.file (lines ++ [line]))) ↔
      name ∈ Journal.filesIn f := by
  rw [mem_filesIn]
  simp only [(h.append name line).holds_iff, append_held, List.mem_map]
  constructor
  · rintro ⟨lines, ⟨m, e⟩, hmem, heq⟩
    cases e with
    | folder => simp [extended] at heq
    | file earlier =>
      obtain rfl : m = name := congrArg Prod.fst heq
      exact ⟨howned, earlier, hmem⟩
  · rintro ⟨-, lines, hmem⟩
    exact ⟨lines, (name, .file lines), hmem, by simp [extended]⟩

theorem held_remove_all (f : Folder) (names : List String) :
    (names.foldl remove f).held = f.held.filter (·.1 ∉ names) := by
  obtain ⟨entries⟩ := f
  cases entries with
  | none =>
    induction names with
    | nil => rfl
    | cons name names ih => exact ih
  | some es =>
    rw [remove_all]
    rfl

end Folder

namespace Journal

variable {j : Journal} {folder : Folder} {calls : List (Moment × Record)} {c : Moment × Record}

/-- Removing old files leaves the last names. -/
theorem prune_spec (j : Journal) (h : j.folder.Proper) :
    j.prune.folder.Proper ∧
      (filesIn j.prune.folder).toFinset = newest j.filesKept (filesIn j.folder).toFinset := by
  have hordered := h.filesIn_ordered
  have hexcess : ∀ name, name ∈ j.excess ↔ name ∈ filesIn j.folder ∧
      j.filesKept ≤ ((filesIn j.folder).filter (name < ·)).length :=
    fun name => mem_take_iff hordered
  have hheld : j.prune.folder.held = j.folder.held.filter (·.1 ∉ j.excess) :=
    j.folder.held_remove_all j.excess
  have hcard : ∀ name, ((filesIn j.folder).toFinset.filter (name < ·)).card =
      ((filesIn j.folder).filter (name < ·)).length := by
    intro name
    have hfilter : (filesIn j.folder).toFinset.filter (name < ·) =
        ((filesIn j.folder).filter (name < ·)).toFinset := by
      ext n
      simp
    rw [hfilter]
    exact List.toFinset_card_of_nodup ((hordered.imp fun hlt => ne_of_lt hlt).filter _)
  refine ⟨?_, ?_⟩
  · unfold Folder.Proper at h ⊢
    rw [hheld]
    exact h.sublist (List.filter_sublist.map _)
  · ext name
    rw [List.mem_toFinset, mem_newest, List.mem_toFinset, hcard, Folder.mem_filesIn, hheld]
    simp only [List.mem_filter, hexcess, Folder.mem_filesIn, decide_eq_true_eq]
    grind

/-! ## Runs -/

/-- All that a record can do. -/
theorem record_outcome (j : Journal) (now : Moment) (r : Record) :
    let name := fileName now.second j.counter
    (j.needsFile = false ∧ j.record now r = { journal := j.write (r.line now.text) }) ∨
    j.needsFile = true ∧
      ((∃ f, j.folder.create name = .error f ∧
        j.record now r = { journal := { j with counter := j.counter + 1 }, fault := some f }) ∨
      ∃ g, j.folder.create name = .ok g ∧
        let k : Journal :=
          { j with counter := j.counter + 1, folder := g, current := some name, written := 0 }
        j.record now r =
          { journal := k.prune.write (r.line now.text)
            log := .opened name :: k.excess.map .removed }) := by
  intro name
  unfold Journal.record
  cases hneeds : j.needsFile with
  | false => exact .inl ⟨rfl, rfl⟩
  | true =>
    refine .inr ⟨rfl, ?_⟩
    simp only [if_true, rotate]
    cases j.folder.create name with
    | error f => exact .inl ⟨f, rfl, rfl⟩
    | ok g => exact .inr ⟨g, rfl, rfl⟩

theorem record_cases (j : Journal) (now : Moment) (r : Record) :
    ((j.record now r).fault ≠ none ∧ (j.record now r).opened = [] ∧
      (j.record now r).journal = { j with counter := j.counter + 1 }) ∨
    ∃ name k, (j.record now r).journal = k.write (r.line now.text) ∧ k.current = some name ∧
      ((k = j ∧ (j.record now r).opened = []) ∨
        ∃ g, ownsName name = true ∧ j.folder.create name = .ok g ∧
          (j.record now r).opened = [name] ∧
          k = prune { j with
            counter := j.counter + 1, folder := g, current := some name, written := 0 }) := by
  obtain ⟨hneeds, hrecord⟩ | ⟨-, ⟨f, -, hrecord⟩ | ⟨g, hcreate, hrecord⟩⟩ := j.record_outcome now r
  · rw [needsFile, Bool.or_eq_false_iff, Option.isNone_eq_false_iff, Option.isSome_iff_exists]
      at hneeds
    obtain ⟨⟨name, hname⟩, -⟩ := hneeds
    rw [hrecord]
    exact .inr ⟨name, j, rfl, hname, .inl ⟨rfl, rfl⟩⟩
  · rw [hrecord]
    exact .inl ⟨Option.some_ne_none _, rfl, rfl⟩
  · rw [hrecord]
    refine .inr ⟨_, _, rfl, rfl, .inr ⟨g, ownsName_fileName _ _, hcreate, ?_, rfl⟩⟩
    simp [Recorded.opened]

/-- What a journal holds of the files that were in its folder and those that it opened. -/
structure Holds (folder : Folder) (j : Journal) (opened : List String) : Prop where
  proper : j.folder.Proper
  current : j.current = opened.getLast?
  owned : ∀ name ∈ opened, ownsName name = true
  files : (filesIn j.folder).toFinset =
    if opened = [] then (filesIn folder).toFinset
    else newest j.filesKept (filesIn folder ++ opened).toFinset

variable {opened : List String}

theorem Holds.write (h : Holds folder j opened) (line : String) :
    Holds folder (j.write line) opened := by
  unfold Journal.write
  split
  next => exact h
  next name hname =>
    refine ⟨h.proper.append name line, h.current, h.owned, ?_⟩
    exact (Folder.filesIn_append _ _ _).trans h.files

theorem Holds.rotate (h : Holds folder j opened) {name : String} {g : Folder} {k : Journal}
    (howned : ownsName name = true) (hcreate : j.folder.create name = .ok g)
    (hfolder : k.folder = g) (hkept : k.filesKept = j.filesKept)
    (hcurrent : k.current = some name) :
    Holds folder k.prune (opened ++ [name]) := by
  obtain ⟨hproper, hfiles⟩ := h.proper.create howned hcreate
  rw [← hfolder] at hproper hfiles
  obtain ⟨hproper', hfiles'⟩ := k.prune_spec hproper
  have hall : (filesIn folder ++ (opened ++ [name])).toFinset =
      insert name (filesIn folder ++ opened).toFinset := by
    ext n
    simp
  refine ⟨hproper', hcurrent.trans List.getLast?_concat.symm, ?_, ?_⟩
  · rw [List.forall_mem_append, List.forall_mem_singleton]
    exact ⟨h.owned, howned⟩
  · have hkept' : k.prune.filesKept = j.filesKept := hkept
    rw [if_neg (by simp), hall, hkept', hfiles', hfiles, h.files, hkept]
    split
    next hnone => rw [hnone, List.append_nil]
    next => exact newest_insert_newest _ _ _

theorem Holds.record (h : Holds folder j opened) (now : Moment) (r : Record) :
    Holds folder (j.record now r).journal (opened ++ (j.record now r).opened) := by
  rcases j.record_cases now r with ⟨-, hnone, hjournal⟩ | ⟨name, k, hjournal, -, hk⟩
  · rw [hnone, hjournal, List.append_nil]
    exact ⟨h.proper, h.current, h.owned, h.files⟩
  · rw [hjournal]
    rcases hk with ⟨rfl, hnone⟩ | ⟨g, howned, hcreate, hopened, rfl⟩
    · rw [hnone, List.append_nil]
      exact h.write _
    · rw [hopened]
      exact (h.rotate (k := { j with
        counter := j.counter + 1, folder := g, current := some name, written := 0 })
        howned hcreate rfl rfl rfl).write _

theorem holds_after (hproper : folder.Proper) (recordsPerFile filesKept : Nat)
    (calls : List (Moment × Record)) :
    let start := create folder recordsPerFile filesKept
    Holds folder (start.after calls) (start.opened calls) := by
  intro start
  induction calls using List.reverseRecOn with
  | nil => exact ⟨hproper, rfl, nofun, rfl⟩
  | append_singleton calls c ih =>
    rw [after_concat, opened_concat]
    exact ih.record c.1 c.2

/-- The file that is written to is in the folder, with the record as its last line, exactly if fewer
files than are kept have later names, of those ever there. -/
theorem current_kept_iff (folder : Folder) (hproper : folder.Proper)
    (recordsPerFile filesKept : Nat) (calls : List (Moment × Record)) (c : Moment × Record)
    (hfault : (((create folder recordsPerFile filesKept).after calls).record c.1 c.2).fault =
      none) :
    let start := create folder recordsPerFile filesKept
    let opened := start.opened (calls ++ [c])
    let j := start.after (calls ++ [c])
    ∃ name, j.current = some name ∧ opened.getLast? = some name ∧
      let later := (filesIn folder ++ opened).toFinset.filter (name < ·)
      ((∃ lines, j.folder.entry? name = some (.file (lines ++ [c.2.line c.1.text]))) ↔
        later.card < max 1 filesKept) ∧
      (name ∈ filesIn j.folder ↔ later.card < max 1 filesKept) := by
  intro start opened j
  have hholds : Holds folder j opened := holds_after hproper recordsPerFile filesKept (calls ++ [c])
  have hproper' := (holds_after hproper recordsPerFile filesKept calls).proper
  obtain ⟨-, hkept⟩ := start.limits_after (calls ++ [c])
  obtain ⟨hfailed, -⟩ | ⟨name, k, hjournal, hcurrent, hk⟩ :=
    (start.after calls).record_cases c.1 c.2
  · exact absurd hfault hfailed
  have hj : j = k.write (c.2.line c.1.text) := (after_concat (j := start)).trans hjournal
  have hwrite : j.folder = k.folder.append name (c.2.line c.1.text) := by
    rw [hj, Journal.write, hcurrent]
  have hname : j.current = some name := by
    rw [hj, Journal.write, hcurrent]
  have hlast : opened.getLast? = some name := hholds.current.symm.trans hname
  have hmem : name ∈ opened := List.mem_of_getLast? hlast
  have howned := hholds.owned name hmem
  have hk' : k.folder.Proper := by
    rcases hk with ⟨rfl, -⟩ | ⟨g, howned, hcreate, -, rfl⟩
    · exact hproper'
    · exact (prune_spec _ (hproper'.create howned hcreate).1).1
  have hfiles : name ∈ filesIn j.folder ↔
      ((filesIn folder ++ opened).toFinset.filter (name < ·)).card < max 1 filesKept := by
    rw [← List.mem_toFinset, hholds.files, if_neg (List.ne_nil_of_mem hmem), mem_newest, hkept]
    exact and_iff_right (List.mem_toFinset.mpr (List.mem_append_right _ hmem))
  refine ⟨name, hname, hlast, ?_, hfiles⟩
  rw [← hfiles, hwrite, hk'.holds_append howned]
  rw [← List.mem_toFinset, ← List.mem_toFinset, Folder.filesIn_append]

def withLateName : Folder := ⟨some [("telemetry_zzz.jsonl", .file ["old"])]⟩

def armCall : Moment × Record := (.ofMillis 999000, .command (.request true (.ofMillis 999000)))

/-- With two files kept, there is room beside the old file. -/
theorem current_kept_lateName :
    let j := (create withLateName 10 2).after [armCall]
    j.current = some "telemetry_19700101_001639_0000.jsonl" ∧
      "telemetry_19700101_001639_0000.jsonl" ∈ filesIn j.folder ∧
      ∃ lines, j.folder.entry? "telemetry_19700101_001639_0000.jsonl" =
        some (.file (lines ++ [armCall.2.line armCall.1.text])) := by
  intro j
  have hproper : withLateName.Proper := by
    unfold Folder.Proper
    decide
  obtain ⟨name, hname, hlast, hline, hfile⟩ :=
    current_kept_iff withLateName hproper 10 2 [] armCall (by decide +kernel)
  have hopened : ((create withLateName 10 2).opened [armCall]).getLast? =
      some "telemetry_19700101_001639_0000.jsonl" := by decide +kernel
  obtain rfl : "telemetry_19700101_001639_0000.jsonl" = name :=
    Option.some.inj (hopened.symm.trans hlast)
  have hroom :
      ((filesIn withLateName ++ (create withLateName 10 2).opened [armCall]).toFinset.filter
        ("telemetry_19700101_001639_0000.jsonl" < ·)).card < max 1 2 := by decide +kernel
  exact ⟨hname, hfile.mpr hroom, hline.mpr hroom⟩

/-- With one file kept, the new file is removed at once, and its record is lost. -/
theorem current_not_always_kept :
    ¬ ∀ (folder : Folder) (recordsPerFile filesKept : Nat) (calls : List (Moment × Record))
      (c : Moment × Record), folder.Proper →
      (((create folder recordsPerFile filesKept).after calls).record c.1 c.2).fault = none →
      let j := (create folder recordsPerFile filesKept).after (calls ++ [c])
      ∃ name lines, j.current = some name ∧
        j.folder.entry? name = some (.file (lines ++ [c.2.line c.1.text])) := by
  intro hall
  have hproper : withLateName.Proper := by
    unfold Folder.Proper
    decide
  obtain ⟨name, lines, hname, hline⟩ :=
    hall withLateName 10 1 [] armCall hproper (by decide +kernel)
  have hcurrent : ((create withLateName 10 1).after [armCall]).current =
      some "telemetry_19700101_001639_0000.jsonl" := by decide +kernel
  have hgone : Folder.entry? ((create withLateName 10 1).after [armCall]).folder
      "telemetry_19700101_001639_0000.jsonl" = none := by decide +kernel
  obtain rfl : "telemetry_19700101_001639_0000.jsonl" = name :=
    Option.some.inj (hcurrent.symm.trans hname)
  cases hgone.symm.trans hline

end Journal

end StickArbiter
