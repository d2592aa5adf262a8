import Mathlib.Data.List.DropRight
import StickArbiter.Proofs.Shelf

/-!
# What a journal retains

A journal that began in a folder without its files has there the last records of its run, in full
files but for the last.
-/

namespace StickArbiter

namespace Journal

/-! ## Runs -/

def Recorded.opened (o : Recorded) : List String :=
  o.log.filterMap fun e => match e with
    | .opened name => some name
    | .removed _ => none

variable (j : Journal) (calls : List (Moment × Record))

/-- The calls of a run, each with the journal before it. -/
def steps : Journal → List (Moment × Record) → List (Journal × Moment × Record)
  | _, [] => []
  | j, c :: calls => (j, c) :: steps (j.record c.1 c.2).journal calls

def after : Journal := calls.foldl (fun j c => (j.record c.1 c.2).journal) j

def Succeeds : Prop := ∀ s ∈ j.steps calls, (s.1.record s.2.1 s.2.2).fault = none

def opened : List String := (j.steps calls).flatMap fun s => (s.1.record s.2.1 s.2.2).opened

def rotations : List String := ((j.steps calls).filter (·.1.needsFile)).map (·.2.1.second)

def lines : List String := calls.map fun c => c.2.line c.1.text

variable {j calls} {c : Moment × Record}

theorem after_concat : j.after (calls ++ [c]) = ((j.after calls).record c.1 c.2).journal :=
  List.foldl_concat ..

theorem steps_concat : j.steps (calls ++ [c]) = j.steps calls ++ [(j.after calls, c)] := by
  induction calls generalizing j with
  | nil => rfl
  | cons d calls ih => exact congrArg (_ :: ·) ih

theorem opened_concat :
    j.opened (calls ++ [c]) =
      j.opened calls ++ ((j.after calls).record c.1 c.2).opened := by
  simp [opened, steps_concat]

theorem rotations_concat :
    j.rotations (calls ++ [c]) =
      j.rotations calls ++ if (j.after calls).needsFile then [c.1.second] else [] := by
  unfold rotations
  rw [steps_concat, List.filter_append, List.map_append, List.filter_singleton]
  cases (j.after calls).needsFile <;> rfl

theorem Succeeds.of_concat (h : j.Succeeds (calls ++ [c])) :
    j.Succeeds calls ∧ ((j.after calls).record c.1 c.2).fault = none := by
  unfold Succeeds at h ⊢
  rw [steps_concat, List.forall_mem_append, List.forall_mem_singleton] at h
  exact h

/-! ## The files of a journal -/

/-- A journal that has opened some files, of which it keeps the last ones. -/
structure Keeps (base : List (String × Entry)) (j : Journal) (vs : List Volume) : Prop where
  folder : j.folder = .shelving base (vs.drop (vs.length - j.filesKept))
  shelf : Folder.Shelf base vs
  current : j.current = vs.getLast?.map Volume.name
  written : j.written = (vs.getLast?.map (·.lines.length)).getD 0
  room : j.written ≤ j.recordsPerFile
  full : ∀ v ∈ vs.dropLast, v.lines.length = j.recordsPerFile
  counter : j.counter.toNat = vs.length

variable {base : List (String × Entry)} {vs : List Volume} {v : Volume}

theorem drop_concat (hkept : 0 < j.filesKept) (v : Volume) :
    (vs ++ [v]).drop ((vs ++ [v]).length - j.filesKept) =
      vs.drop (vs.length + 1 - j.filesKept) ++ [v] := by
  rw [List.length_append, List.length_singleton, List.drop_append_of_le_length (by omega)]

theorem Keeps.write (h : Keeps base j (vs ++ [v])) (hroom : j.written < j.recordsPerFile)
    (hkept : 0 < j.filesKept) (line : String) :
    Keeps base (j.write line) (vs ++ [v.add line]) := by
  have hcurrent : j.current = some v.name := by
    rw [h.current, List.getLast?_concat, Option.map_some]
  have hwritten : j.written = v.lines.length := by
    rw [h.written, List.getLast?_concat, Option.map_some, Option.getD_some]
  have hshelf := h.shelf.drop ((vs ++ [v]).length - j.filesKept)
  rw [drop_concat hkept] at hshelf
  unfold Journal.write
  rw [hcurrent]
  refine ⟨?_, h.shelf.add line, ?_, ?_, hroom, ?_, ?_⟩
  · change j.folder.append v.name line = _
    rw [h.folder, drop_concat hkept, hshelf.append]
    exact congrArg (Folder.shelving base) (drop_concat hkept _).symm
  · rw [List.getLast?_concat]
    rfl
  · rw [List.getLast?_concat]
    simp [Volume.add, hwritten]
  · rw [List.dropLast_concat]
    have hfull := h.full
    rwa [List.dropLast_concat] at hfull
  · rw [List.length_append, List.length_singleton]
    exact h.counter.trans List.length_append

theorem excess_of_shelf (h : Folder.Shelf base vs) (hfolder : j.folder = .shelving base vs) :
    j.excess = (vs.map Volume.name).take (vs.length - j.filesKept) := by
  unfold excess
  rw [hfolder, h.filesIn]
  simp only [List.length_map]

theorem prune_of_shelf (h : Folder.Shelf base vs) (hfolder : j.folder = .shelving base vs) :
    j.prune = { j with folder := .shelving base (vs.drop (vs.length - j.filesKept)) } := by
  unfold prune
  rw [excess_of_shelf h hfolder, hfolder, h.remove_take]

theorem Keeps.rotate (h : Keeps base j vs) {second : String}
    (hfull : ∀ v ∈ vs, v.lines.length = j.recordsPerFile) (hfew : vs.length < 10000)
    (hlater : ∀ v ∈ vs, v.name < fileName second j.counter)
    (hfault : (j.rotate second).fault = none) :
    Keeps base (j.rotate second).journal (vs ++ [{ name := fileName second j.counter }]) ∧
      (j.rotate second).opened = [fileName second j.counter] := by
  have howned := ownsName_fileName second j.counter
  unfold Journal.rotate at hfault ⊢
  generalize fileName second j.counter = name at *
  cases hcreate : j.folder.create name with
  | error f =>
    simp only [hcreate] at hfault
    cases hfault
  | ok f =>
    have hkept := h.shelf.drop (vs.length - j.filesKept)
    have hlater' : ∀ v ∈ vs.drop (vs.length - j.filesKept), v.name < name :=
      fun v hv => hlater v (List.mem_of_mem_drop hv)
    obtain ⟨rfl, hapart⟩ := hkept.create howned hlater' (h.folder ▸ hcreate)
    have hopened := hkept.concat (v := { name := name }) howned hapart hlater'
    have hall := h.shelf.concat (v := { name := name }) howned hapart hlater
    simp only [hcreate]
    rw [prune_of_shelf hopened rfl]
    refine ⟨⟨?_, hall, ?_, ?_, Nat.zero_le _, ?_, ?_⟩, ?_⟩
    · refine congrArg (Folder.shelving base) ?_
      rw [← List.drop_append_of_le_length (Nat.sub_le _ _), List.drop_drop]
      congr 1
      simp only [List.length_append, List.length_drop, List.length_singleton]
      omega
    · rw [List.getLast?_concat]
      rfl
    · rw [List.getLast?_concat]
      rfl
    · rwa [List.dropLast_concat]
    · have hcounter := h.counter
      have hone : (1 : UInt32).toNat = 1 := rfl
      change (j.counter + 1).toNat = _
      rw [UInt32.toNat_add, hone, List.length_append, List.length_singleton]
      omega
    · simp [Recorded.opened]

theorem limits_rotate (j : Journal) (second : String) :
    (j.rotate second).journal.recordsPerFile = j.recordsPerFile ∧
      (j.rotate second).journal.filesKept = j.filesKept := by
  unfold Journal.rotate
  simp only []
  split <;> exact ⟨rfl, rfl⟩

theorem Keeps.full_of_needsFile (h : Keeps base j vs) (hneeds : j.needsFile = true) :
    ∀ v ∈ vs, v.lines.length = j.recordsPerFile := by
  rcases List.eq_nil_or_concat vs with rfl | ⟨ws, w, rfl⟩
  · simp
  · rw [List.concat_eq_append] at *
    have hcurrent := h.current
    have hwritten := h.written
    have hroom := h.room
    have hfull := h.full
    rw [List.getLast?_concat] at hcurrent hwritten
    rw [List.dropLast_concat] at hfull
    simp [needsFile, hcurrent] at hneeds
    simp at hwritten
    rw [List.forall_mem_append, List.forall_mem_singleton]
    exact ⟨hfull, by omega⟩

theorem Keeps.record (h : Keeps base j vs) (hfiles : 0 < j.filesKept)
    (hrecords : 0 < j.recordsPerFile) (now : Moment) (r : Record)
    (hfew : j.needsFile = true → vs.length < 10000)
    (hlater : j.needsFile = true → ∀ v ∈ vs, v.name < fileName now.second j.counter)
    (hfault : (j.record now r).fault = none) :
    ∃ ws, Keeps base (j.record now r).journal ws ∧ 0 < (j.record now r).journal.written ∧
      ws.map Volume.name = vs.map Volume.name ++ (j.record now r).opened ∧
      (j.record now r).opened = (if j.needsFile then [fileName now.second j.counter] else []) ∧
      ws.flatMap Volume.lines = vs.flatMap Volume.lines ++ [r.line now.text] := by
  unfold Journal.record at hfault ⊢
  cases hneeds : j.needsFile with
  | true =>
    obtain ⟨hrecords', hfiles'⟩ := j.limits_rotate now.second
    simp only [hneeds, if_true] at hfault ⊢
    have hrotated : (j.rotate now.second).fault = none := by
      cases hf : (j.rotate now.second).fault with
      | none => rfl
      | some f =>
        rw [hf] at hfault
        cases hf.symm.trans hfault
    obtain ⟨hkeeps, hopened⟩ :=
      h.rotate (h.full_of_needsFile hneeds) (hfew hneeds) (hlater hneeds) hrotated
    have hempty : (j.rotate now.second).journal.written = 0 := by
      rw [hkeeps.written, List.getLast?_concat]
      rfl
    have hwritten := hkeeps.write (by omega) (by omega) (r.line now.text)
    simp only [hrotated]
    refine ⟨_, hwritten, ?_, ?_, hopened, ?_⟩
    · rw [hwritten.written, List.getLast?_concat]
      simp [Volume.add]
    · rw [List.map_append]
      exact congrArg (_ ++ ·) hopened.symm
    · simp [Volume.add]
  | false =>
    simp only [hneeds, Bool.false_eq_true, if_false] at hfault ⊢
    simp only [needsFile, Bool.or_eq_false_iff, Option.isNone_eq_false_iff,
      decide_eq_false_iff_not] at hneeds
    rcases List.eq_nil_or_concat vs with rfl | ⟨ws, w, rfl⟩
    · rw [h.current] at hneeds
      cases hneeds.1
    · rw [List.concat_eq_append] at h ⊢
      have hwritten := h.write (by omega) hfiles (r.line now.text)
      refine ⟨_, hwritten, ?_, ?_, rfl, ?_⟩
      · rw [hwritten.written, List.getLast?_concat]
        simp [Volume.add]
      · simp [Recorded.opened, Volume.add]
      · simp [Volume.add]

theorem limits_write (j : Journal) (line : String) :
    (j.write line).recordsPerFile = j.recordsPerFile ∧ (j.write line).filesKept = j.filesKept := by
  unfold Journal.write
  split <;> exact ⟨rfl, rfl⟩

theorem limits_record (j : Journal) (now : Moment) (r : Record) :
    (j.record now r).journal.recordsPerFile = j.recordsPerFile ∧
      (j.record now r).journal.filesKept = j.filesKept := by
  unfold Journal.record
  split
  next hneeds =>
    obtain ⟨hrecords, hfiles⟩ := j.limits_rotate now.second
    simp only []
    split
    · exact ⟨hrecords, hfiles⟩
    · obtain ⟨hrecords', hfiles'⟩ := (j.rotate now.second).journal.limits_write (r.line now.text)
      exact ⟨hrecords'.trans hrecords, hfiles'.trans hfiles⟩
  next => exact j.limits_write (r.line now.text)

theorem limits_after (j : Journal) (calls : List (Moment × Record)) :
    (j.after calls).recordsPerFile = j.recordsPerFile ∧
      (j.after calls).filesKept = j.filesKept := by
  induction calls using List.reverseRecOn with
  | nil => exact ⟨rfl, rfl⟩
  | append_singleton calls c ih =>
    obtain ⟨hrecords, hfiles⟩ := (j.after calls).limits_record c.1 c.2
    rw [after_concat]
    exact ⟨hrecords.trans ih.1, hfiles.trans ih.2⟩

/-! ## Whole runs -/

/-- Every file is opened, there are no more than 10000, and the clock never goes back. -/
structure Regular (j : Journal) (calls : List (Moment × Record)) : Prop where
  succeeds : j.Succeeds calls
  dated : ∀ second ∈ j.rotations calls, Moment.Dated second
  ordered : (j.rotations calls).Pairwise (· ≤ ·)
  few : (j.rotations calls).length ≤ 10000

theorem steps_calls : (j.steps calls).map (·.2) = calls := by
  induction calls generalizing j with
  | nil => rfl
  | cons c calls ih => exact congrArg (c :: ·) ih

theorem dated_rotations (h : ∀ c ∈ calls, ∃ n, c.1 = .ofMillis n) :
    ∀ second ∈ j.rotations calls, Moment.Dated second := by
  intro second hsecond
  obtain ⟨s, hs, rfl⟩ := List.mem_map.mp hsecond
  have hcall : s.2 ∈ (j.steps calls).map (·.2) :=
    List.mem_map_of_mem (List.mem_of_mem_filter hs)
  rw [steps_calls] at hcall
  obtain ⟨n, hn⟩ := h _ hcall
  rw [hn]
  exact Moment.dated_ofMillis n

theorem Regular.of_concat (h : j.Regular (calls ++ [c])) : j.Regular calls := by
  obtain ⟨hsucceeds, hdated, hordered, hfew⟩ := h
  rw [rotations_concat] at hdated hordered hfew
  rw [List.length_append] at hfew
  exact ⟨hsucceeds.of_concat.1, fun s hs => hdated s (List.mem_append_left _ hs),
    (List.pairwise_append.mp hordered).1, by omega⟩

/-- The files that a run has opened, in that order, hold the records of the run. -/
structure Tells (base : List (String × Entry)) (j : Journal) (calls : List (Moment × Record))
    (vs : List Volume) : Prop where
  keeps : Keeps base (j.after calls) vs
  begun : calls ≠ [] → 0 < (j.after calls).written
  names : vs.map Volume.name = j.opened calls
  lines : vs.flatMap Volume.lines = lines calls
  count : vs.length = (j.rotations calls).length
  named : ∀ v ∈ vs, ∃ second ∈ j.rotations calls, ∃ n : UInt32,
    v.name = fileName second n ∧ n.toNat < vs.length

theorem exists_tells (hstart : Keeps base j []) (hfiles : 0 < j.filesKept)
    (hrecords : 0 < j.recordsPerFile) (h : j.Regular calls) : ∃ vs, Tells base j calls vs := by
  induction calls using List.reverseRecOn with
  | nil => exact ⟨[], hstart, fun hne => absurd rfl hne, rfl, rfl, rfl, nofun⟩
  | append_singleton calls c ih =>
    obtain ⟨vs, ⟨hkeeps, -, hnames, hlines, hcount, hnamed⟩⟩ := ih h.of_concat
    obtain ⟨hrecordsAfter, hfilesAfter⟩ := j.limits_after calls
    obtain ⟨hsucceeds, hdated, hordered, hfew⟩ := h
    rw [rotations_concat] at hdated hordered hfew
    have hfew' : (j.after calls).needsFile = true → vs.length < 10000 := by
      intro hneeds
      rw [if_pos hneeds, List.length_append, List.length_singleton] at hfew
      omega
    have hlater : (j.after calls).needsFile = true →
        ∀ v ∈ vs, v.name < fileName c.1.second (j.after calls).counter := by
      intro hneeds v hv
      rw [if_pos hneeds] at hdated hordered
      obtain ⟨second, hsecond, n, hname, hn⟩ := hnamed v hv
      rw [hname]
      refine fileName_lt (hdated _ (List.mem_append_left _ hsecond)) (hdated _ (by simp)) ?_ ?_ ?_
      · exact (List.pairwise_append.mp hordered).2.2 _ hsecond _ (by simp)
      · rwa [hkeeps.counter]
      · rw [hkeeps.counter]
        exact hfew' hneeds
    obtain ⟨ws, hkeeps', hwritten, hnames', hopened, hlines'⟩ :=
      hkeeps.record (by omega) (by omega) c.1 c.2 hfew' hlater hsucceeds.of_concat.2
    refine ⟨ws, ?_, ?_, ?_, ?_, ?_, ?_⟩
    · rwa [after_concat]
    · intro _
      rwa [after_concat]
    · rw [opened_concat, ← hnames]
      exact hnames'
    · rw [hlines', hlines]
      simp [Journal.lines]
    · have hlength := congrArg List.length hnames'
      rw [hopened, List.length_append, List.length_map, List.length_map] at hlength
      rw [rotations_concat, List.length_append, ← hcount, hlength]
      split <;> rfl
    · intro v hv
      rw [rotations_concat]
      have hlength := congrArg List.length hnames'
      have hmem : v.name ∈ ws.map Volume.name := List.mem_map_of_mem hv
      rw [hnames', hopened] at hmem
      rw [hopened, List.length_append, List.length_map, List.length_map] at hlength
      rcases List.mem_append.mp hmem with hearlier | hnew
      · obtain ⟨w, hw, hname⟩ := List.mem_map.mp hearlier
        obtain ⟨second, hsecond, n, hname', hn⟩ := hnamed w hw
        exact ⟨second, List.mem_append_left _ hsecond, n, hname.symm.trans hname', by omega⟩
      · split at hnew
        next hneeds =>
          rw [if_pos hneeds] at hlength ⊢
          rw [List.length_singleton] at hlength
          refine ⟨c.1.second, by simp, _, List.mem_singleton.mp hnew, ?_⟩
          rw [hkeeps.counter]
          omega
        next => cases hnew

theorem entries_of_succeeds {folder : Folder} {recordsPerFile filesKept : Nat} (hcalls : calls ≠ [])
    (h : (create folder recordsPerFile filesKept).Succeeds calls) :
    folder.entries = some folder.held := by
  obtain ⟨c, rest, rfl⟩ := List.exists_cons_of_ne_nil hcalls
  have hfirst := h _ List.mem_cons_self
  obtain ⟨entries⟩ := folder
  cases entries with
  | none => cases hfirst
  | some es => rfl

theorem Keeps.start {folder : Folder} (hempty : filesIn folder = [])
    (hentries : folder.entries = some folder.held) (recordsPerFile filesKept : Nat) :
    Keeps folder.held (create folder recordsPerFile filesKept) [] := by
  refine ⟨?_, ⟨Folder.foreign_of_filesIn hempty, nofun, nofun, .nil⟩, rfl, rfl, Nat.zero_le _,
    nofun, rfl⟩
  rw [List.drop_nil, Folder.shelving, List.map_nil, List.append_nil, ← hentries]
  rfl

theorem Tells.exists_concat (h : Tells base j calls vs) (hcalls : calls ≠ []) :
    ∃ ws v, vs = ws ++ [v] := by
  rcases List.eq_nil_or_concat vs with rfl | ⟨ws, v, rfl⟩
  · have hbegun := h.begun hcalls
    rw [h.keeps.written] at hbegun
    cases hbegun
  · exact ⟨ws, v, List.concat_eq_append⟩

theorem Tells.folder {ws : List Volume} (h : Tells base j calls (ws ++ [v]))
    (hkept : 0 < j.filesKept) :
    (j.after calls).folder = .shelving base (ws.drop (ws.length + 1 - j.filesKept) ++ [v]) ∧
      Folder.Shelf base (ws.drop (ws.length + 1 - j.filesKept) ++ [v]) := by
  have hdrop : (ws ++ [v]).drop ((ws ++ [v]).length - j.filesKept) =
      ws.drop (ws.length + 1 - j.filesKept) ++ [v] := drop_concat hkept v
  obtain ⟨-, hfiles⟩ := j.limits_after calls
  have hfolder := h.keeps.folder
  have hshelf := h.keeps.shelf.drop ((ws ++ [v]).length - j.filesKept)
  rw [hfiles, hdrop] at hfolder
  rw [hdrop] at hshelf
  exact ⟨hfolder, hshelf⟩

theorem length_flatMap_lines {ws : List Volume} {n : Nat} (h : ∀ v ∈ ws, v.lines.length = n) :
    (ws.flatMap Volume.lines).length = ws.length * n := by
  rw [List.length_flatMap, List.map_congr_left h, List.map_const', List.sum_replicate_nat]

theorem drop_flatMap_lines {ws : List Volume} {n k : Nat} (h : ∀ v ∈ ws, v.lines.length = n)
    (hk : k ≤ ws.length) (us : List Volume) :
    ((ws ++ us).flatMap Volume.lines).drop (k * n) = (ws.drop k ++ us).flatMap Volume.lines := by
  have hfirst : ∀ v ∈ ws.take k, v.lines.length = n := fun v hv => h v (List.mem_of_mem_take hv)
  have hlength : ((ws.take k).flatMap Volume.lines).length = k * n := by
    rw [length_flatMap_lines hfirst, List.length_take_of_le hk]
  calc ((ws ++ us).flatMap Volume.lines).drop (k * n)
    _ = ((ws.take k ++ (ws.drop k ++ us)).flatMap Volume.lines).drop (k * n) := by
      rw [← List.append_assoc, List.take_append_drop]
    _ = (ws.drop k ++ us).flatMap Volume.lines := by
      rw [List.flatMap_append, List.drop_left' hlength]

theorem Tells.sizes {ws : List Volume} (h : Tells base j calls (ws ++ [v])) (hcalls : calls ≠ []) :
    ws.length + 1 = (calls.length + j.recordsPerFile - 1) / j.recordsPerFile ∧
      v.lines.length = calls.length - ws.length * j.recordsPerFile ∧
      ∀ w ∈ ws, w.lines.length = j.recordsPerFile := by
  obtain ⟨hrecords, -⟩ := j.limits_after calls
  have hfull := h.keeps.full
  have hwritten := h.keeps.written
  have hroom := h.keeps.room
  have hbegun := h.begun hcalls
  rw [List.dropLast_concat] at hfull
  rw [List.getLast?_concat, Option.map_some, Option.getD_some] at hwritten
  rw [hwritten] at hroom hbegun
  rw [hrecords] at hroom hfull
  have hlength := congrArg List.length h.lines
  rw [List.flatMap_append, List.length_append, length_flatMap_lines hfull, List.flatMap_singleton,
    Journal.lines, List.length_map] at hlength
  refine ⟨Eq.symm (Nat.div_eq_of_lt_le ?_ ?_), by omega, hfull⟩
  · rw [Nat.add_mul, Nat.one_mul]
    omega
  · rw [Nat.add_mul, Nat.add_mul, Nat.one_mul]
    omega

/-- The lines in the files are those of the last records. -/
theorem Tells.flatMap_linesOf {ws : List Volume} (h : Tells base j calls (ws ++ [v]))
    (hcalls : calls ≠ []) (hkept : 0 < j.filesKept) :
    let folder := (j.after calls).folder
    (filesIn folder).flatMap folder.linesOf =
      (Journal.lines calls).drop ((ws.length + 1 - j.filesKept) * j.recordsPerFile) := by
  intro folder
  obtain ⟨-, -, hfull⟩ := h.sizes hcalls
  obtain ⟨hfolder, hshelf⟩ := h.folder hkept
  have hfiles : filesIn folder = _ := (congrArg filesIn hfolder).trans hshelf.filesIn
  have hlines : ∀ w ∈ ws.drop (ws.length + 1 - j.filesKept) ++ [v],
      folder.linesOf w.name = w.lines := by
    intro w hw
    rw [show folder = _ from hfolder, hshelf.linesOf hw]
  rw [hfiles, List.flatMap_map, List.flatMap_congr hlines, ← h.lines]
  exact (drop_flatMap_lines hfull (by omega) [v]).symm

/-- After a run, the journal has the last files that it opened, all full but the last, with the last
records in order. Other entries stay as they were. -/
theorem retention (folder : Folder) (recordsPerFile filesKept : Nat)
    (calls : List (Moment × Record)) (hempty : filesIn folder = []) (hcalls : calls ≠ [])
    (h : (create folder recordsPerFile filesKept).Regular calls) :
    let start := create folder recordsPerFile filesKept
    let j := start.after calls
    let limit := max 1 recordsPerFile
    let files := filesIn j.folder
    let count := (calls.length + limit - 1) / limit
    let kept := min count (max 1 filesKept)
    (start.opened calls).length = count ∧ files.length = kept ∧ files.Pairwise (· < ·) ∧
    files = (start.opened calls).drop (count - kept) ∧
    (∃ last, files.getLast? = some last ∧ j.current = some last ∧
      (j.folder.linesOf last).length = calls.length - (count - 1) * limit) ∧
    (∀ name ∈ files.dropLast, (j.folder.linesOf name).length = limit) ∧
    files.flatMap j.folder.linesOf = (lines calls).drop ((count - kept) * limit) ∧
    j.folder.foreign = folder.foreign := by
  intro start j limit files count kept
  obtain ⟨vs, htells⟩ := exists_tells (j := start)
    (.start hempty (entries_of_succeeds hcalls h.succeeds) recordsPerFile filesKept)
    (Nat.le_max_left 1 filesKept) (Nat.le_max_left 1 recordsPerFile) h
  obtain ⟨ws, v, rfl⟩ := htells.exists_concat hcalls
  obtain ⟨hnumber, hlast, hfull⟩ := htells.sizes hcalls
  have hcount : ws.length + 1 = count := hnumber
  have hk : count - kept ≤ ws.length := by omega
  have hexcess : ws.length + 1 - start.filesKept = count - kept := by
    change ws.length + 1 - max 1 filesKept = _
    omega
  obtain ⟨hfolder, hshelf⟩ := htells.folder (Nat.le_max_left 1 filesKept)
  rw [hexcess] at hfolder hshelf
  have hfiles : files = (ws.drop (count - kept) ++ [v]).map Volume.name :=
    (congrArg filesIn hfolder).trans hshelf.filesIn
  have hlines : ∀ w ∈ ws.drop (count - kept) ++ [v], j.folder.linesOf w.name = w.lines := by
    intro w hw
    rw [hfolder, hshelf.linesOf hw]
  refine ⟨?_, ?_, ?_, ?_, ⟨v.name, ?_, ?_, ?_⟩, ?_, ?_, ?_⟩
  · rw [← htells.names]
    simpa using hcount
  · rw [hfiles]
    simp
    omega
  · rw [hfiles]
    exact hshelf.ordered
  · rw [hfiles, ← htells.names, ← List.map_drop, List.drop_append_of_le_length hk]
  · rw [hfiles, List.map_append]
    exact List.getLast?_concat
  · rw [htells.keeps.current, List.getLast?_concat]
    rfl
  · rw [hlines v (by simp), hlast, ← hcount]
    rfl
  · rw [hfiles, List.map_append, List.map_singleton, List.dropLast_concat, List.forall_mem_map]
    intro w hw
    rw [hlines w (List.mem_append_left _ hw)]
    exact hfull w (List.mem_of_mem_drop hw)
  · rw [← hexcess]
    exact htells.flatMap_linesOf hcalls (Nat.le_max_left 1 filesKept)
  · rw [hfolder, hshelf.foreign]
    exact (List.filter_eq_self.mpr (Folder.foreign_of_filesIn hempty)).symm

def withNote : Folder := ⟨some [("telemetry_notes.txt", .file ["flights"])]⟩

/-- Five commands, of which the last two fall into a later second. -/
def fiveCalls : List (Moment × Record) :=
  [999000, 999100, 999500, 1000000, 1000200].map fun n =>
    (.ofMillis n, .command (.request true (.ofMillis n)))

/-- With two records to a file and two files kept, the first two of five records are gone. -/
theorem retention_fiveCalls :
    let start := create withNote 2 2
    let j := start.after fiveCalls
    filesIn j.folder =
        ["telemetry_19700101_001639_0001.jsonl", "telemetry_19700101_001640_0002.jsonl"] ∧
      (filesIn j.folder).flatMap j.folder.linesOf = (lines fiveCalls).drop 2 ∧
      j.folder.foreign = [("telemetry_notes.txt", .file ["flights"])] := by
  intro start j
  have hregular : start.Regular fiveCalls := by
    refine ⟨?_, ?_, by decide +kernel, by decide +kernel⟩
    · unfold Succeeds
      decide +kernel
    · refine dated_rotations ?_
      unfold fiveCalls
      simp only [List.forall_mem_map]
      exact fun n _ => ⟨n, rfl⟩
  have h := retention withNote 2 2 fiveCalls (by decide +kernel) (by decide) hregular
  have hfiles : filesIn j.folder =
      ["telemetry_19700101_001639_0001.jsonl", "telemetry_19700101_001640_0002.jsonl"] := by
    rw [h.2.2.2.1]
    decide +kernel
  exact ⟨hfiles, h.2.2.2.2.2.2.1, h.2.2.2.2.2.2.2⟩

end Journal

end StickArbiter
