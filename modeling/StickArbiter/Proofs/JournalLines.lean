import StickArbiter.Journal.Record
import StickArbiter.Proofs.RecordingLines
import StickArbiter.Proofs.RoundTrip

/-!
# The lines of a journal

What is written as an object stays on one line, so a file falls apart into the lines of its records.
A line tells its time and its record.
-/

namespace StickArbiter

/-! ## One line -/

namespace Json

theorem lineFeed_not_mem_characterText (c : Char) : '\n' ∉ characterText c := by
  unfold characterText
  split_ifs with _ _ _ _ hfeed _ _ hcontrol
  iterate 7 decide
  · have hdigits : ∀ n < 32, '\n' ∉
        ['\\', 'u', '0', '0', Nat.digitChar (n / 16), Nat.digitChar (n % 16)] := by decide
    exact hdigits c.toNat hcontrol
  · simpa [eq_comm] using hfeed

theorem lineFeed_not_mem_stringText (s : String) : '\n' ∉ stringText s := by
  simp [stringText, lineFeed_not_mem_characterText]

theorem lineFeed_not_mem_naturalText (n : Nat) : '\n' ∉ naturalText n := fun h =>
  absurd (isDigit_of_mem_naturalText h) (by decide)

theorem lineFeed_not_mem_singleText (x : Float32) : '\n' ∉ singleText x := fun h =>
  absurd (Reader.isBlank_of_mem_singleText h) (by decide)

theorem lineFeed_not_mem_flagText (b : Bool) : '\n' ∉ flagText b := by
  cases b <;> decide

theorem lineFeed_not_mem_objectText {ms : List MemberText} (h : ∀ m ∈ ms, '\n' ∉ m.2) :
    '\n' ∉ objectText ms := by
  have hmember : ∀ m ∈ ms, '\n' ∉ memberText m := fun m hm => by
    simp [memberText, lineFeed_not_mem_stringText, h m hm]
  have hmembers : '\n' ∉ membersText ms := by
    cases ms with
    | nil => simp [membersText]
    | cons m ms =>
      rw [List.forall_mem_cons] at hmember
      simpa [membersText_cons, laterText, hmember.1] using hmember.2
  simpa [objectText] using hmembers

end Json

open Json

theorem Source.lineFeed_not_mem_wireText (s : Source) : '\n' ∉ s.wireText := by
  cases s with
  | mavlink channel =>
    exact lineFeed_not_mem_objectText (by simp [lineFeed_not_mem_naturalText])
  | unknown | rc | joystick | simulator => exact lineFeed_not_mem_stringText _

namespace Record

theorem lineFeed_not_mem_members (r : Record) : ∀ m ∈ r.members, '\n' ∉ m.2 := by
  cases r with
  | command c =>
    simp [members, Command.wireMembers, Instant.wireText, lineFeed_not_mem_stringText,
      lineFeed_not_mem_singleText, lineFeed_not_mem_naturalText]
  | setpoint sp =>
    have hslot : '\n' ∉ optionalText naturalText sp.slot := by
      cases sp.slot with
      | none => decide
      | some n => exact lineFeed_not_mem_naturalText n
    simp [members, Setpoint.wireMembers, Axes.wireMembers, Instant.wireText, hslot,
      lineFeed_not_mem_singleText, lineFeed_not_mem_naturalText, lineFeed_not_mem_flagText,
      Source.lineFeed_not_mem_wireText]

theorem lineFeed_not_mem_line (time : String) (r : Record) : '\n' ∉ (r.line time).toList := by
  rw [line, String.toList_ofList]
  refine lineFeed_not_mem_objectText ?_
  simpa [lineFeed_not_mem_stringText] using r.lineFeed_not_mem_members

end Record

/-! ## The text of a file -/

namespace Text

theorem eq_lineFeed_of_mem_utf8EncodeChar {c : Char} (h : lineFeed ∈ String.utf8EncodeChar c) :
    c = '\n' := by
  have hbyte : ∀ n : Nat, lineFeed = UInt8.ofNat n → n % 256 = 10 := fun n hn =>
    (congrArg UInt8.toNat hn).symm
  have hhigh : ∀ n : Nat, 127 < n → n < 256 → lineFeed ≠ UInt8.ofNat n := by
    intro n hn hn' heq
    have := hbyte n heq
    omega
  unfold String.utf8EncodeChar at h
  simp only [] at h
  split_ifs at h with hone
  · have hvalue := hbyte _ (List.mem_singleton.mp h)
    have hlow : c.toNat ≤ 127 := hone
    have hc : c.toNat = 10 := (Nat.mod_eq_of_lt (show c.toNat < 256 by omega)).symm.trans hvalue
    rw [← Char.ofNat_toNat c, hc]
  -- A character that takes several bytes has none below 128.
  all_goals simp (disch := omega) only [List.mem_cons, List.not_mem_nil, hhigh, or_self] at h

theorem lineFeed_not_mem_bytes {cs : List Char} (h : '\n' ∉ cs) : lineFeed ∉ bytes cs := by
  intro hmem
  obtain ⟨c, hc, hbyte⟩ := List.mem_flatMap.mp hmem
  exact h (eq_lineFeed_of_mem_utf8EncodeChar hbyte ▸ hc)

end Text

/-- The bytes of a file with some lines, each of which is ended. -/
def Folder.fileBytes (ls : List String) : List UInt8 :=
  ls.flatMap fun l => Text.bytes l.toList ++ [Text.lineFeed]

theorem Folder.lines_fileBytes {ls : List String} (h : ∀ l ∈ ls, '\n' ∉ l.toList) :
    Text.lines (fileBytes ls) = ls.map fun l => Text.bytes l.toList := by
  induction ls with
  | nil => rfl
  | cons l ls ih =>
    rw [List.forall_mem_cons] at h
    rw [fileBytes, List.flatMap_cons, List.append_assoc, List.singleton_append,
      Text.lines_line _ _ (Text.lineFeed_not_mem_bytes h.1), List.map_cons, ← ih h.2, fileBytes]

/-! ## What a line tells -/

namespace Json.Reader

theorem stringText_append_inj {s t : String} {rest rest' : List Char}
    (h : stringText s ++ rest = stringText t ++ rest') : s = t ∧ rest = rest' := by
  have hread := key_append s rest
  rw [h, key_append] at hread
  cases hread
  exact ⟨rfl, rfl⟩

theorem memberText_append_inj {k s t : String} {rest rest' : List Char}
    (h : memberText (k, stringText s) ++ rest = memberText (k, stringText t) ++ rest') :
    s = t ∧ rest = rest' := by
  rw [memberText_append, memberText_append] at h
  obtain ⟨-, hvalue⟩ := stringText_append_inj h
  exact stringText_append_inj (List.cons.inj hvalue).2

end Json.Reader

open Json.Reader

namespace Record

/-- Whether the numbers of a record are read back from their texts. -/
def ReadsBack : Record → Prop
  | .setpoint sp =>
    (∀ x ∈ sp.axes.numbers, Json.Reader.ReadsBack x) ∧ ∀ n, sp.slot = some n → n < Wire.wordLimit
  | .command c => Json.Reader.ReadsBack c.param

theorem rearranges_line (time : String) (r : Record) :
    Rearranges r.members []
      ([("time", stringText time), ("type", stringText r.kind)] ++ r.members) := by
  refine ⟨[("time", .text time), ("type", .text r.kind)], ?_, ?_⟩
  · cases r <;> simp [members, Setpoint.wireMembers, Axes.wireMembers, Command.wireMembers]
  · have hall : r.members.filter (·.1 ∉ ([] : List String)) = r.members :=
      List.filter_eq_self.mpr (by simp)
    rw [hall]
    exact List.perm_append_comm

theorem run_line_setpoint {sp : Setpoint} (h : (setpoint sp).ReadsBack) (time : String) :
    run Wire.setpoint ((setpoint sp).line time).toList = .ok sp := by
  rw [line, String.toList_ofList]
  exact Wire.run_setpoint h.1 h.2 (rearranges_line time (setpoint sp))

theorem run_line_command {c : Command} (h : (command c).ReadsBack) (time : String) :
    run Wire.command ((command c).line time).toList = .ok c := by
  rw [line, String.toList_ofList]
  exact Wire.run_record rfl (Wire.lists_command h) (by decide) (rearranges_line time (command c))
    fun _ => Wire.complete_command c

theorem toList_line (time : String) (r : Record) :
    (r.line time).toList = '\x7b' :: (memberText ("time", stringText time) ++
      ',' :: (memberText ("type", stringText r.kind) ++ (laterText r.members ++ ['\x7d']))) := by
  rw [line, String.toList_ofList, objectText, List.cons_append, membersText_cons]
  simp [laterText]

/-- Two lines are the same only if their times and their records are. -/
theorem line_inj {time time' : String} {r r' : Record} (h : r.ReadsBack) (h' : r'.ReadsBack)
    (heq : r.line time = r'.line time') : time = time' ∧ r = r' := by
  have htext := congrArg String.toList heq
  rw [toList_line, toList_line] at htext
  obtain ⟨htime, hbehind⟩ := memberText_append_inj (List.cons.inj htext).2
  obtain ⟨hkind, -⟩ := memberText_append_inj (List.cons.inj hbehind).2
  refine ⟨htime, ?_⟩
  cases r with
  | setpoint sp =>
    cases r' with
    | setpoint sp' =>
      have hread := run_line_setpoint h time
      rw [heq, run_line_setpoint h' time'] at hread
      cases hread
      rfl
    | command c' => simp [kind] at hkind
  | command c =>
    cases r' with
    | setpoint sp' => simp [kind] at hkind
    | command c' =>
      have hread := run_line_command h time
      rw [heq, run_line_command h' time'] at hread
      cases hread
      rfl

theorem readsBack_request (arm : Bool) (t : Instant) : (command (.request arm t)).ReadsBack := by
  have hparam : ∀ arm, Json.Reader.ReadsBack (Command.request arm .zero).param := by
    unfold Json.Reader.ReadsBack
    decide +kernel
  exact hparam arm

/-- A file of records has their lines, and no more. -/
theorem lines_fileBytes {ls : List String} (h : ∀ l ∈ ls, ∃ time, ∃ r : Record, r.line time = l) :
    Text.lines (Folder.fileBytes ls) = ls.map fun l => Text.bytes l.toList := by
  refine Folder.lines_fileBytes fun l hl => ?_
  obtain ⟨time, r, rfl⟩ := h l hl
  exact r.lineFeed_not_mem_line time

end Record

end StickArbiter
