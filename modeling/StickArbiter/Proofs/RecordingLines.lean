import Mathlib.Data.List.Forall2
import Mathlib.Data.List.ReduceOption
import Mathlib.Data.List.TakeWhile
import Mathlib.Logic.Relation
import StickArbiter.Recording.Basic

/-!
# The lines of a recording

Each line that is not blank holds one sample, and the first one that holds none tells why there is
no recording.
-/

namespace StickArbiter

/-! ## UTF-8 -/

namespace Text

def bytes (cs : List Char) : List UInt8 := cs.flatMap String.utf8EncodeChar

theorem bytes_append (cs ds : List Char) : bytes (cs ++ ds) = bytes cs ++ bytes ds :=
  List.flatMap_append

theorem toByteArray_bytes (cs : List Char) : (bytes cs).toByteArray = cs.utf8Encode := rfl

theorem mk_toArray (l : List UInt8) : (⟨l.toArray⟩ : ByteArray) = l.toByteArray :=
  ByteArray.ext List.data_toByteArray.symm

theorem toByteArray_inj {l m : List UInt8} (h : l.toByteArray = m.toByteArray) : l = m := by
  have hdata := congrArg ByteArray.data h
  rw [List.data_toByteArray, List.data_toByteArray] at hdata
  simpa using hdata

theorem exists_of_bytes_append {pre cs : List Char} {l : List UInt8}
    (h : bytes pre ++ l = bytes cs) : ∃ rest, l = bytes rest := by
  have harray : pre.utf8Encode ++ l.toByteArray = cs.utf8Encode := by
    rw [← toByteArray_bytes, ← toByteArray_bytes, ← h, List.toByteArray_append]
  obtain ⟨rest, rfl⟩ := List.isPrefix_of_utf8Encode_append_eq_utf8Encode _ harray
  rw [bytes_append] at h
  exact ⟨rest, List.append_cancel_left h⟩

theorem exists_of_append_bytes {post cs : List Char} {l : List UInt8}
    (h : l ++ bytes post = bytes cs) : ∃ rest, l = bytes rest := by
  let s := String.ofList cs
  let p : String.Pos.Raw := ⟨l.length⟩
  have harray : s.toByteArray = l.toByteArray ++ post.utf8Encode := by
    rw [String.toByteArray_ofList, ← toByteArray_bytes, ← toByteArray_bytes, ← h,
      List.toByteArray_append]
  have hsize : l.toByteArray.size = l.length := List.size_toByteArray
  have hp : p ≤ s.rawEndPos := by
    rw [String.Pos.Raw.le_iff, String.byteIdx_rawEndPos, ← String.size_toByteArray, harray,
      ByteArray.size_append, hsize]
    exact Nat.le_add_right _ _
  -- What follows `p` is a text, so `p` is where a character begins.
  have hvalid : p.IsValid s := by
    refine String.Pos.Raw.isValid_iff_isValidUTF8_extract_utf8ByteSize.mpr ⟨hp, post, ?_⟩
    rw [← String.size_toByteArray, harray]
    exact ByteArray.extract_append_eq_right hsize.symm ByteArray.size_append
  obtain ⟨m, hm⟩ := (String.Pos.Raw.isValid_iff_isValidUTF8_extract_zero.mp hvalid).2
  rw [harray, ByteArray.extract_append_eq_left hsize.symm] at hm
  exact ⟨m, toByteArray_inj hm⟩

theorem textOfBytes_bytes (cs : List Char) :
    textOfBytes ⟨(bytes cs).toArray⟩ = .ok (String.ofList cs) := by
  have hvalid : cs.utf8Encode.IsValidUTF8 := ⟨cs, rfl⟩
  rw [mk_toArray, toByteArray_bytes, textOfBytes, String.fromUTF8?, dif_pos hvalid]
  exact congrArg Except.ok (String.toByteArray_inj.mp String.toByteArray_ofList.symm)

theorem textOfBytes_of_forall_ne {l : List UInt8} (h : ∀ cs, l ≠ bytes cs) :
    textOfBytes ⟨l.toArray⟩ = .error .notText := by
  have hvalid : ¬ l.toByteArray.IsValidUTF8 := by
    rintro ⟨cs, hcs⟩
    exact h cs (toByteArray_inj hcs)
  rw [mk_toArray, textOfBytes, String.fromUTF8?, dif_neg hvalid]

/-! ## Blanks around a text -/

theorem trimmed_eq_nil_iff {cs : List Char} :
    trimmed cs = [] ↔ ∀ c ∈ cs, isBlank c = true := by
  refine ⟨fun h => ?_, trimmed_of_blank⟩
  rw [trimmed, List.reverse_eq_nil_iff, List.dropWhile_eq_nil_iff] at h
  have hdrop : cs.dropWhile isBlank = [] := by
    by_contra hne
    have hhead := List.head_dropWhile_not isBlank hne
    rw [h _ (List.mem_reverse.mpr (List.head_mem hne))] at hhead
    cases hhead
  exact List.dropWhile_eq_nil_iff.mp hdrop

theorem trimmed_around {pre cs post : List Char} (hpre : ∀ c ∈ pre, isBlank c = true)
    (hpost : ∀ c ∈ post, isBlank c = true) : trimmed (pre ++ cs ++ post) = trimmed cs := by
  by_cases hcs : ∀ c ∈ cs, isBlank c = true
  · rw [trimmed_eq_nil_iff.mpr hcs, trimmed_eq_nil_iff, List.forall_mem_append,
      List.forall_mem_append]
    exact ⟨⟨hpre, hcs⟩, hpost⟩
  · have hne : (cs.dropWhile isBlank).isEmpty = false := by
      rwa [List.isEmpty_eq_false_iff, ne_eq, List.dropWhile_eq_nil_iff]
    have hpost' : ∀ c ∈ post.reverse, isBlank c = true :=
      fun c hc => hpost c (List.mem_reverse.mp hc)
    rw [trimmed, List.append_assoc, List.dropWhile_append_of_pos hpre, List.dropWhile_append, hne,
      if_neg Bool.false_ne_true, List.reverse_append, List.dropWhile_append_of_pos hpost', trimmed]

/-! ## Lines -/

/-- Behind the last line feed there is an empty piece if no line begins there. -/
theorem splitOn_lineFeed (t : List UInt8) :
    t.splitOn lineFeed = lines t ∨ t.splitOn lineFeed = lines t ++ [[]] := by
  induction t with
  | nil => exact Or.inr rfl
  | cons b t ih =>
    rw [List.splitOn_cons_eq_if_modifyHead, lines]
    by_cases hb : b = lineFeed
    · rw [if_pos (beq_iff_eq.mpr hb), if_pos hb]
      rcases ih with ih | ih <;> rw [ih]
      · exact Or.inl rfl
      · exact Or.inr rfl
    · rw [if_neg (mt beq_iff_eq.mp hb), if_neg hb]
      rcases ih with ih | ih <;> rw [ih]
      · cases hlines : lines t with
        | nil => exact absurd (ih.trans hlines) (List.splitOn_ne_nil _ _)
        | cons l ls => exact Or.inl rfl
      · cases lines t with
        | nil => exact Or.inl rfl
        | cons l ls => exact Or.inr rfl

end Text

/-! ## What a line holds -/

namespace Recording

def Blank (l : List UInt8) : Prop :=
  ∃ cs, l = Text.bytes cs ∧ ∀ c ∈ cs, Text.isBlank c = true

/-- A line that is a sample without the blanks around it. -/
def Reads (l : List UInt8) (x : Sample) : Prop :=
  ∃ cs, l = Text.bytes cs ∧ Wire.readSample (Text.trimmed cs) = .ok x

def Holds (l : List UInt8) : Option Sample → Prop
  | none => Blank l
  | some x => Reads l x

/-- A line that is not UTF-8, or neither blank nor a sample. -/
inductive Spoils (l : List UInt8) : Fault → Prop
  | notText (h : ∀ cs, l ≠ Text.bytes cs) : Spoils l (.io .notText)
  | notSample {cs : List Char} {e : Json.ReadError} (text : l = Text.bytes cs)
      (shown : ¬ ∀ c ∈ cs, Text.isBlank c = true)
      (fault : Wire.readSample (Text.trimmed cs) = .error e) : Spoils l (.json e)

theorem readLine_of_blank {l : List UInt8} (h : Blank l) : readLine l = .ok none := by
  obtain ⟨cs, rfl, hblank⟩ := h
  simp only [readLine, Text.textOfBytes_bytes, String.toList_ofList,
    Text.trimmed_eq_nil_iff.mpr hblank]

theorem readLine_bytes_of_shown {cs : List Char} (h : Text.trimmed cs ≠ []) :
    readLine (Text.bytes cs) = ((Wire.readSample (Text.trimmed cs)).map some).mapError .json := by
  simp only [readLine, Text.textOfBytes_bytes, String.toList_ofList]
  cases Wire.readSample (Text.trimmed cs) <;> rfl

theorem readLine_of_reads {l : List UInt8} {x : Sample} (h : Reads l x) :
    readLine l = .ok (some x) := by
  obtain ⟨cs, rfl, hread⟩ := h
  have hshown : Text.trimmed cs ≠ [] := by
    intro hnil
    rw [hnil] at hread
    cases hread
  rw [readLine_bytes_of_shown hshown, hread]
  rfl

theorem readLine_of_spoils {l : List UInt8} {f : Fault} (h : Spoils l f) :
    readLine l = .error f := by
  cases h with
  | notText h => simp only [readLine, Text.textOfBytes_of_forall_ne h]
  | notSample text shown fault =>
    rw [text, readLine_bytes_of_shown (mt Text.trimmed_eq_nil_iff.mp shown), fault]
    rfl

theorem holds_or_spoils (l : List UInt8) : (∃ x?, Holds l x?) ∨ ∃ f, Spoils l f := by
  by_cases htext : ∃ cs, l = Text.bytes cs
  · obtain ⟨cs, rfl⟩ := htext
    by_cases hblank : ∀ c ∈ cs, Text.isBlank c = true
    · exact Or.inl ⟨none, cs, rfl, hblank⟩
    · cases hread : Wire.readSample (Text.trimmed cs) with
      | ok x => exact Or.inl ⟨some x, cs, rfl, hread⟩
      | error e => exact Or.inr ⟨.json e, .notSample rfl hblank hread⟩
  · exact Or.inr ⟨.io .notText, .notText (not_exists.mp htext)⟩

theorem readLine_of_holds {l : List UInt8} {x? : Option Sample} (h : Holds l x?) :
    readLine l = .ok x? := by
  cases x? with
  | none => exact readLine_of_blank h
  | some x => exact readLine_of_reads h

theorem readLine_eq_ok_iff {l : List UInt8} {x? : Option Sample} :
    readLine l = .ok x? ↔ Holds l x? := by
  refine ⟨fun h => ?_, readLine_of_holds⟩
  rcases holds_or_spoils l with ⟨y?, hy⟩ | ⟨f, hf⟩
  · cases (readLine_of_holds hy).symm.trans h
    exact hy
  · cases (readLine_of_spoils hf).symm.trans h

theorem readLine_eq_error_iff {l : List UInt8} {f : Fault} :
    readLine l = .error f ↔ Spoils l f := by
  refine ⟨fun h => ?_, readLine_of_spoils⟩
  rcases holds_or_spoils l with ⟨y?, hy⟩ | ⟨g, hg⟩
  · cases (readLine_of_holds hy).symm.trans h
  · cases (readLine_of_spoils hg).symm.trans h
    exact hg

theorem readLine_around (l : List UInt8) (pre post : List Char)
    (hpre : ∀ c ∈ pre, Text.isBlank c = true) (hpost : ∀ c ∈ post, Text.isBlank c = true) :
    readLine (Text.bytes pre ++ l ++ Text.bytes post) = readLine l := by
  by_cases htext : ∃ cs, l = Text.bytes cs
  · obtain ⟨cs, rfl⟩ := htext
    rw [← Text.bytes_append, ← Text.bytes_append]
    simp only [readLine, Text.textOfBytes_bytes, String.toList_ofList,
      Text.trimmed_around hpre hpost]
  · have hsame : ∀ cs, Text.bytes pre ++ l ++ Text.bytes post ≠ Text.bytes cs := by
      intro cs hcs
      obtain ⟨rest, hrest⟩ := Text.exists_of_append_bytes hcs
      exact htext (Text.exists_of_bytes_append hrest)
    rw [readLine_of_spoils (.notText hsame), readLine_of_spoils (.notText (not_exists.mp htext))]

/-! ## What some lines hold -/

theorem readLines_eq_ok_iff {ls : List (List UInt8)} {xs : List Sample} :
    readLines ls = .ok xs ↔ ∃ held, List.Forall₂ Holds ls held ∧ xs = held.reduceOption := by
  induction ls generalizing xs with
  | nil =>
    rw [readLines]
    constructor
    · rintro ⟨⟩
      exact ⟨[], .nil, rfl⟩
    · rintro ⟨held, hheld, rfl⟩
      cases hheld
      rfl
  | cons l ls ih =>
    rw [readLines]
    constructor
    · intro h
      cases hl : readLine l with
      | error f => rw [hl] at h; cases h
      | ok x? =>
        cases hls : readLines ls with
        | error f => rw [hl, hls] at h; cases h
        | ok ys =>
          rw [hl, hls] at h
          cases h
          obtain ⟨held, hheld, rfl⟩ := ih.mp hls
          refine ⟨x? :: held, .cons (readLine_eq_ok_iff.mp hl) hheld, ?_⟩
          cases x? <;> rfl
    · rintro ⟨held, hheld, rfl⟩
      cases hheld with
      | @cons _ x? _ held hl hls =>
        rw [readLine_of_holds hl, ih.mpr ⟨held, hls, rfl⟩]
        cases x? <;> rfl

theorem readLines_eq_error_iff {ls : List (List UInt8)} {f : Fault} :
    readLines ls = .error f ↔ ∃ before l after, ls = before ++ l :: after ∧
      (∀ m ∈ before, ∃ x?, Holds m x?) ∧ Spoils l f := by
  induction ls with
  | nil =>
    constructor
    · rintro ⟨⟩
    · rintro ⟨before, l, after, h, -⟩
      simp at h
  | cons l ls ih =>
    rw [readLines]
    cases hl : readLine l with
    | error g =>
      have hspoils := readLine_eq_error_iff.mp hl
      constructor
      · rintro ⟨⟩
        exact ⟨[], l, ls, rfl, List.forall_mem_nil _, hspoils⟩
      · rintro ⟨before, m, after, h, hbefore, hm⟩
        cases before with
        | nil =>
          cases h
          cases hl.symm.trans (readLine_of_spoils hm)
          rfl
        | cons k before =>
          cases h
          obtain ⟨x?, hx⟩ := hbefore _ List.mem_cons_self
          cases hl.symm.trans (readLine_of_holds hx)
    | ok x? =>
      have hholds := readLine_eq_ok_iff.mp hl
      have hmap : (readLines ls).map (x?.toList ++ ·) = .error f ↔ readLines ls = .error f := by
        cases readLines ls <;> simp [Except.map]
      rw [hmap, ih]
      constructor
      · rintro ⟨before, m, after, rfl, hbefore, hm⟩
        exact ⟨l :: before, m, after, rfl, List.forall_mem_cons.mpr ⟨⟨x?, hholds⟩, hbefore⟩, hm⟩
      · rintro ⟨before, m, after, h, hbefore, hm⟩
        cases before with
        | nil =>
          cases h
          cases hl.symm.trans (readLine_of_spoils hm)
        | cons k before =>
          cases h
          exact ⟨before, m, after, rfl, fun m hm => hbefore m (List.mem_cons_of_mem _ hm), hm⟩

theorem readLines_append_congr (xs : List (List UInt8)) {ys zs : List (List UInt8)}
    (h : readLines ys = readLines zs) : readLines (xs ++ ys) = readLines (xs ++ zs) := by
  induction xs with
  | nil => exact h
  | cons x xs ih => rw [List.cons_append, List.cons_append, readLines, readLines, ih]

theorem readLines_blank (xs ys : List (List UInt8)) {l : List UInt8} (h : Blank l) :
    readLines (xs ++ l :: ys) = readLines (xs ++ ys) := by
  refine readLines_append_congr xs ?_
  rw [readLines, readLine_of_blank h]
  cases readLines ys <;> rfl

theorem readLines_replace (xs ys : List (List UInt8)) {l m : List UInt8}
    (h : readLine l = readLine m) : readLines (xs ++ l :: ys) = readLines (xs ++ m :: ys) := by
  refine readLines_append_congr xs ?_
  rw [readLines, readLines, h]

/-! ## Texts -/

/-- Putting in a line of blanks, or blanks around a line. -/
inductive Spacing : List (List UInt8) → List (List UInt8) → Prop
  | line (xs ys : List (List UInt8)) {l : List UInt8} (h : Blank l) :
      Spacing (xs ++ ys) (xs ++ l :: ys)
  | around (xs ys : List (List UInt8)) (l : List UInt8) {pre post : List Char}
      (hpre : ∀ c ∈ pre, Text.isBlank c = true) (hpost : ∀ c ∈ post, Text.isBlank c = true) :
      Spacing (xs ++ l :: ys) (xs ++ (Text.bytes pre ++ l ++ Text.bytes post) :: ys)

def withReturns (t : List UInt8) : List UInt8 :=
  t.flatMap fun b => if b = Text.lineFeed then Text.bytes ['\r'] ++ [b] else [b]

theorem readLines_of_spacing {ls ms : List (List UInt8)} (h : Spacing ls ms) :
    readLines ls = readLines ms := by
  cases h with
  | line xs ys h => exact (readLines_blank xs ys h).symm
  | around xs ys l hpre hpost =>
    exact readLines_replace xs ys (readLine_around l _ _ hpre hpost).symm

theorem readLines_of_respaced {ls ms : List (List UInt8)} (h : Relation.EqvGen Spacing ls ms) :
    readLines ls = readLines ms := by
  induction h with
  | rel ls ms h => exact readLines_of_spacing h
  | refl ls => rfl
  | symm ls ms _ ih => exact ih.symm
  | trans ls ms ns _ _ ih ih' => exact ih.trans ih'

theorem blank_nil : Blank [] := ⟨[], rfl, nofun⟩

theorem readLines_lines (t : List UInt8) :
    readLines (Text.lines t) = readLines (t.splitOn Text.lineFeed) := by
  rcases Text.splitOn_lineFeed t with h | h
  · rw [h]
  · rw [h, readLines_blank _ _ blank_nil, List.append_nil]

theorem ofBytes_eq_ok_iff {t : List UInt8} {r : Recording} :
    ofBytes t = .ok r ↔ readLines (t.splitOn Text.lineFeed) = .ok r.samples := by
  rw [ofBytes, readLines_lines]
  cases readLines (t.splitOn Text.lineFeed) with
  | error f => exact iff_of_false nofun nofun
  | ok xs =>
    constructor
    · rintro ⟨⟩
      rfl
    · rintro ⟨⟩
      rfl

theorem ofBytes_eq_error_iff {t : List UInt8} {f : Fault} :
    ofBytes t = .error f ↔ readLines (t.splitOn Text.lineFeed) = .error f := by
  rw [ofBytes, readLines_lines]
  cases readLines (t.splitOn Text.lineFeed) <;> simp [Except.map]

theorem exists_ofBytes_iff (t : List UInt8) :
    (∃ r, ofBytes t = .ok r) ↔ ∀ l ∈ t.splitOn Text.lineFeed, ¬ Blank l → ∃ x, Reads l x := by
  constructor
  · rintro ⟨r, hr⟩ l hl hblank
    obtain ⟨held, hheld, -⟩ := readLines_eq_ok_iff.mp (ofBytes_eq_ok_iff.mp hr)
    obtain ⟨k, hk, rfl⟩ := List.getElem_of_mem hl
    have hline := (List.forall₂_iff_get.mp hheld).2 k hk (hheld.length_eq ▸ hk)
    cases hx : held.get ⟨k, hheld.length_eq ▸ hk⟩ with
    | none =>
      rw [hx] at hline
      exact absurd hline hblank
    | some x =>
      rw [hx] at hline
      exact ⟨x, hline⟩
  · intro h
    cases hread : ofBytes t with
    | ok r => exact ⟨r, rfl⟩
    | error f =>
      obtain ⟨before, l, after, ht, -, hspoils⟩ :=
        readLines_eq_error_iff.mp (ofBytes_eq_error_iff.mp hread)
      have herror := readLine_of_spoils hspoils
      have hblank : ¬ Blank l := fun hb => by cases herror.symm.trans (readLine_of_blank hb)
      obtain ⟨x, hx⟩ := h l (by simp [ht]) hblank
      cases herror.symm.trans (readLine_of_reads hx)

theorem ofBytes_congr {t u : List UInt8}
    (h : readLines (t.splitOn Text.lineFeed) = readLines (u.splitOn Text.lineFeed)) :
    ofBytes t = ofBytes u := by
  rw [ofBytes, ofBytes, readLines_lines, readLines_lines, h]

theorem readLines_withReturns (a t : List UInt8) (ha : Text.lineFeed ∉ a) :
    readLines ((a ++ withReturns t).splitOn Text.lineFeed) =
      readLines ((a ++ t).splitOn Text.lineFeed) := by
  induction t generalizing a with
  | nil => rfl
  | cons b t ih =>
    by_cases hb : b = Text.lineFeed
    · have hreturn : Text.lineFeed ∉ a ++ Text.bytes ['\r'] := by
        rw [List.mem_append, not_or]
        exact ⟨ha, by decide⟩
      have hline : readLine (a ++ Text.bytes ['\r']) = readLine a :=
        readLine_around a [] ['\r'] nofun (List.forall_mem_singleton.mpr rfl)
      have hsplit : a ++ withReturns (b :: t) =
          (a ++ Text.bytes ['\r']) ++ Text.lineFeed :: withReturns t := by
        simp [withReturns, hb]
      rw [hsplit, hb, List.splitOn_append_cons_self_of_not_mem hreturn,
        List.splitOn_append_cons_self_of_not_mem ha, readLines, readLines, hline]
      have hrest : readLines ((withReturns t).splitOn Text.lineFeed) =
          readLines (t.splitOn Text.lineFeed) := ih [] List.not_mem_nil
      rw [hrest]
    · have hnext : Text.lineFeed ∉ a ++ [b] := by
        rw [List.mem_append, List.mem_singleton, not_or]
        exact ⟨ha, Ne.symm hb⟩
      have hsplit : a ++ withReturns (b :: t) = (a ++ [b]) ++ withReturns t := by
        simp [withReturns, hb]
      rw [hsplit, List.append_cons a b t]
      exact ih (a ++ [b]) hnext

theorem ofBytes_append_of_terminated {t u : List UInt8} {a b : Recording}
    (ht : t = [] ∨ t.getLast? = some Text.lineFeed) (ha : ofBytes t = .ok a)
    (hb : ofBytes u = .ok b) : ofBytes (t ++ u) = .ok ⟨a.samples ++ b.samples⟩ := by
  rw [ofBytes_eq_ok_iff] at ha hb ⊢
  rcases ht with rfl | ht
  · rw [List.splitOn_nil, ← List.nil_append [[]], readLines_blank _ _ blank_nil] at ha
    cases a
    cases ha
    exact hb
  · obtain ⟨s, rfl⟩ := List.getLast?_eq_some_iff.mp ht
    rw [List.splitOn_append_cons_self, List.splitOn_nil, readLines_blank _ _ blank_nil,
      List.append_nil] at ha
    rw [List.append_assoc, List.singleton_append, List.splitOn_append_cons_self]
    exact readLines_append ha hb

/-- A text is a recording exactly if each line that is not blank is a sample, and else its first bad
line says why. Blanks and carriage returns do not matter, and recordings can be joined. -/
theorem ofBytes_by_line (t : List UInt8) :
    ((∃ r, ofBytes t = .ok r) ↔
      ∀ l ∈ t.splitOn Text.lineFeed, ¬ Blank l → ∃ x, Reads l x) ∧
    (∀ r, ofBytes t = .ok r ↔
      ∃ held, List.Forall₂ Holds (t.splitOn Text.lineFeed) held ∧ r.samples = held.reduceOption) ∧
    (∀ f, ofBytes t = .error f ↔
      ∃ before l after, t.splitOn Text.lineFeed = before ++ l :: after ∧
        (∀ m ∈ before, ∃ x?, Holds m x?) ∧ Spoils l f) ∧
    (∀ u, Relation.EqvGen Spacing (t.splitOn Text.lineFeed) (u.splitOn Text.lineFeed) →
      ofBytes u = ofBytes t) ∧
    ofBytes (withReturns t) = ofBytes t ∧
    (∀ u a b, t = [] ∨ t.getLast? = some Text.lineFeed → ofBytes t = .ok a → ofBytes u = .ok b →
      ofBytes (t ++ u) = .ok ⟨a.samples ++ b.samples⟩) := by
  refine ⟨?_, fun r => ?_, fun f => ?_, fun u h => ?_, ?_,
    fun u a b => ofBytes_append_of_terminated⟩
  · exact exists_ofBytes_iff t
  · rw [ofBytes_eq_ok_iff, readLines_eq_ok_iff]
  · rw [ofBytes_eq_error_iff, readLines_eq_error_iff]
  · exact ofBytes_congr (readLines_of_respaced h).symm
  · exact ofBytes_congr (readLines_withReturns [] t List.not_mem_nil)

def pushedText : List Char :=
  "\x7b\"x\":0.5,\"y\":0,\"z\":0,\"r\":0,\"timestamp\":7\x7d".toList

def pushed : Sample := { axes := ⟨0.5, 0, 0, 0⟩, timestamp := .ofMicros 7 }

def compact : List UInt8 := Text.bytes (pushedText ++ ['\n'])

/-- The same with other blanks and a blank line. -/
def spacedOut : List UInt8 := Text.bytes (['\u00a0'] ++ pushedText ++ ['\r', '\n', ' ', '\n'])

theorem reads_pushed : Reads (Text.bytes pushedText) pushed :=
  ⟨pushedText, rfl, by decide +kernel⟩

theorem ofBytes_spacedOut :
    ofBytes compact = .ok ⟨[pushed]⟩ ∧ ofBytes spacedOut = .ok ⟨[pushed]⟩ ∧
      ofBytes (compact ++ compact) = .ok ⟨[pushed, pushed]⟩ ∧
      ofBytes (compact ++ [0xff, Text.lineFeed, 0x5d]) = .error (.io .notText) := by
  have hsplit : compact.splitOn Text.lineFeed = [Text.bytes pushedText, []] := by decide +kernel
  have hspaced : spacedOut.splitOn Text.lineFeed =
      [Text.bytes ['\u00a0'] ++ Text.bytes pushedText ++ Text.bytes ['\r'], Text.bytes [' '],
        []] := by
    decide +kernel
  have hspoilt : (compact ++ [0xff, Text.lineFeed, 0x5d]).splitOn Text.lineFeed =
      [Text.bytes pushedText] ++ [0xff] :: [[0x5d]] := by
    decide +kernel
  obtain ⟨-, hok, -, hspacing, -, happend⟩ := ofBytes_by_line compact
  have hcompact : ofBytes compact = .ok ⟨[pushed]⟩ := by
    rw [hok, hsplit]
    exact ⟨[some pushed, none], .cons reads_pushed (.cons blank_nil .nil), rfl⟩
  refine ⟨hcompact, ?_, happend _ _ _ (Or.inr (by decide +kernel)) hcompact hcompact, ?_⟩
  · rw [← hcompact]
    refine hspacing spacedOut ?_
    rw [hsplit, hspaced]
    have hspace : ∀ c ∈ ['\u00a0'], Text.isBlank c = true := List.forall_mem_singleton.mpr rfl
    have hreturn : ∀ c ∈ ['\r'], Text.isBlank c = true := List.forall_mem_singleton.mpr rfl
    have hblank : Blank (Text.bytes [' ']) := ⟨[' '], rfl, List.forall_mem_singleton.mpr rfl⟩
    exact .trans _ _ _ (.rel _ _ (.line [Text.bytes pushedText] [[]] hblank))
      (.rel _ _ (.around [] _ (Text.bytes pushedText) hspace hreturn))
  · rw [(ofBytes_by_line _).2.2.1, hspoilt]
    refine ⟨_, _, _, rfl, ?_, .notText fun cs hcs => ?_⟩
    · simp only [List.mem_singleton, forall_eq]
      exact ⟨some pushed, reads_pushed⟩
    · have hvalid : [0xff].toByteArray.IsValidUTF8 := ⟨cs, congrArg List.toByteArray hcs⟩
      exact absurd hvalid (by decide +kernel)

end Recording

end StickArbiter
