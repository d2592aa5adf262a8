import Mathlib.Tactic.SplitIfs
import StickArbiter.Json.Record
import StickArbiter.Json.Writer

/-!
# Values read back in place

A written value is read back, or passed over, wherever it may stand: at the end of a text, or before
a comma or a closing bracket.
-/

namespace StickArbiter.Json

/-- Ends, or goes on as an object goes on behind a value. -/
def Closes (rest : List Char) : Prop := ∀ c ∈ rest.head?, c = ',' ∨ c = '\x7d'

theorem closes_nil : Closes [] := nofun

theorem closes_cons {c : Char} (hc : c = ',' ∨ c = '\x7d') (rest : List Char) :
    Closes (c :: rest) := by
  rintro _ ⟨⟩
  exact hc

namespace Reader

variable {α β : Type} {r : Reader α} {f : α → Reader β} {a : α} {b : β} {text rest : List Char}

/-- The reader gives the value of the text and leaves what is behind it. -/
def Takes (r : Reader α) (text : List Char) (a : α) : Prop :=
  ∀ rest, Closes rest → r (text ++ rest) = .ok (a, rest)

theorem bind_ok (h : r text = .ok (a, rest)) : (r >>= f) text = f a rest := by
  change (r text >>= fun p => f p.1 p.2) = _
  rw [h]
  rfl

theorem Takes.bind_pure (h : Takes r text a) (g : α → β) :
    Takes (r >>= fun a => pure (g a)) text (g a) := fun rest hrest => bind_ok (h rest hrest)

theorem Takes.run (h : Takes r text a) : run r text = .ok a := by
  have hread := h [] closes_nil
  rw [List.append_nil] at hread
  unfold Reader.run
  simp only [bind_ok hread]
  rfl

theorem peekPastBlanks_cons {c : Char} (hc : isBlank c = false) (cs : List Char) :
    peekPastBlanks (c :: cs) = .ok (some c, c :: cs) := by
  unfold peekPastBlanks
  simp [hc]

theorem atValue_cons {g : Char → Reader α} {c : Char} (hc : isBlank c = false) (cs : List Char) :
    atValue g (c :: cs) = g c (c :: cs) := by
  rw [atValue, bind_ok (peekPastBlanks_cons hc cs)]

/-! ## Words -/

theorem word_append (w rest : List Char) : word w (w ++ rest) = .ok ((), rest) := by
  induction w with
  | nil => rfl
  | cons c cs ih =>
    rw [word, bind_ok rfl]
    simp only [List.cons_append, List.head?_cons, if_true]
    rw [bind_ok rfl]
    exact ih

theorem scalar_null (rest : List Char) : scalar 'n' (nullText ++ rest) = .ok (.null, rest) := by
  have hword : word ['u', 'l', 'l'] (['u', 'l', 'l'] ++ rest) = .ok ((), rest) :=
    word_append _ _
  exact (bind_ok rfl).trans (bind_ok hword)

theorem scalar_true (rest : List Char) :
    scalar 't' (flagText true ++ rest) = .ok (.flag true, rest) := by
  have hword : word ['r', 'u', 'e'] (['r', 'u', 'e'] ++ rest) = .ok ((), rest) :=
    word_append _ _
  exact (bind_ok rfl).trans (bind_ok hword)

theorem scalar_false (rest : List Char) :
    scalar 'f' (flagText false ++ rest) = .ok (.flag false, rest) := by
  have hword : word ['a', 'l', 's', 'e'] (['a', 'l', 's', 'e'] ++ rest) = .ok ((), rest) :=
    word_append _ _
  exact (bind_ok rfl).trans (bind_ok hword)

theorem takes_flag (b : Bool) : Takes flag (flagText b) b := by
  intro rest _
  cases b with
  | false => exact (atValue_cons (by decide) _).trans (bind_ok (scalar_false rest))
  | true => exact (atValue_cons (by decide) _).trans (bind_ok (scalar_true rest))

/-! ## Strings -/

theorem fourHexDigits_control {c : Char} (hc : c < ' ') (rest : List Char) :
    fourHexDigits ('0' :: '0' :: Nat.digitChar (c.toNat / 16) ::
      Nat.digitChar (c.toNat % 16) :: rest) = .ok (c.toNat, rest) := by
  have hvalue : ∀ n < 32,
      hexValue? ['0', '0', Nat.digitChar (n / 16), Nat.digitChar (n % 16)] = some n := by decide
  have hbytes : ∀ n < 32,
      (bytewise ['0', '0', Nat.digitChar (n / 16), Nat.digitChar (n % 16)]).length = 4 := by
    decide
  unfold fourHexDigits
  simp [hvalue c.toNat hc, hbytes c.toNat hc]

theorem numberedEscape_control {c : Char} (hc : c < ' ') (rest : List Char) :
    numberedEscape ('0' :: '0' :: Nat.digitChar (c.toNat / 16) ::
      Nat.digitChar (c.toNat % 16) :: rest) = .ok (c, rest) := by
  have hsmall : c.toNat < 32 := hc
  have hleading : isLeading c.toNat = false := by
    simp [isLeading]
    omega
  have htrailing : isTrailing c.toNat = false := by
    simp [isTrailing]
    omega
  rw [numberedEscape, bind_ok (fourHexDigits_control hc rest), hleading, htrailing]
  simp only [Bool.false_eq_true, if_false, Char.ofNat_toNat]
  rfl

theorem escape_control {c : Char} (hc : c < ' ') (rest : List Char) :
    escape ('u' :: '0' :: '0' :: Nat.digitChar (c.toNat / 16) ::
      Nat.digitChar (c.toNat % 16) :: rest) = .ok (c, rest) := by
  rw [escape, bind_ok rfl]
  exact numberedEscape_control hc rest

theorem passCharacters_control {c : Char} (hc : c < ' ') (n : Nat) (rest : List Char) :
    passCharacters (n + 1) ('\\' :: 'u' :: '0' :: '0' :: Nat.digitChar (c.toNat / 16) ::
      Nat.digitChar (c.toNat % 16) :: rest) = passCharacters n rest := by
  rw [passCharacters, bind_ok rfl]
  simp only [List.head?_cons]
  rw [bind_ok rfl]
  simp only [List.drop_succ_cons, List.drop_zero]
  rw [bind_ok rfl]
  simp only [List.head?_cons]
  rw [bind_ok rfl]
  exact bind_ok (fourHexDigits_control hc rest)

theorem characterText_cases (c : Char) :
    (∃ es, characterText c = '\\' :: es ∧ (∀ rest, escape (es ++ rest) = .ok (c, rest)) ∧
      ∀ n rest, passCharacters (n + 1) ('\\' :: (es ++ rest)) = passCharacters n rest) ∨
    (characterText c = [c] ∧ c ≠ '"' ∧ c ≠ '\\' ∧ ¬c < ' ') := by
  unfold characterText
  split_ifs with h₁ h₂ h₃ h₄ h₅ h₆ h₇ h₈
  · subst h₁
    exact .inl ⟨['"'], rfl, fun _ => rfl, fun _ _ => rfl⟩
  · subst h₂
    exact .inl ⟨['\\'], rfl, fun _ => rfl, fun _ _ => rfl⟩
  · subst h₃
    exact .inl ⟨['b'], rfl, fun _ => rfl, fun _ _ => rfl⟩
  · subst h₄
    exact .inl ⟨['f'], rfl, fun _ => rfl, fun _ _ => rfl⟩
  · subst h₅
    exact .inl ⟨['n'], rfl, fun _ => rfl, fun _ _ => rfl⟩
  · subst h₆
    exact .inl ⟨['r'], rfl, fun _ => rfl, fun _ _ => rfl⟩
  · subst h₇
    exact .inl ⟨['t'], rfl, fun _ => rfl, fun _ _ => rfl⟩
  · refine .inl ⟨['u', '0', '0', _, _], rfl, fun rest => ?_, fun n rest => ?_⟩
    · exact escape_control h₈ rest
    · exact passCharacters_control h₈ n rest
  · exact .inr ⟨rfl, h₁, h₂, h₈⟩

theorem characters_cons (c : Char) (n : Nat) (rest : List Char) :
    characters (n + 1) (characterText c ++ rest) =
      (characters n >>= fun cs => pure (c :: cs)) rest := by
  obtain ⟨es, htext, hescape, -⟩ | ⟨htext, hquote, hslash, hc⟩ := characterText_cases c
  · rw [htext, characters]
    exact (bind_ok rfl).trans (bind_ok (hescape rest))
  · rw [htext, characters, bind_ok rfl]
    simp [hc]

theorem passCharacters_cons (c : Char) (n : Nat) (rest : List Char) :
    passCharacters (n + 1) (characterText c ++ rest) = passCharacters n rest := by
  obtain ⟨es, htext, -, hpass⟩ | ⟨htext, hquote, hslash, hc⟩ := characterText_cases c
  · rw [htext]
    exact hpass n rest
  · rw [htext, passCharacters, bind_ok rfl]
    simp [hc]
    rfl

theorem characters_append {cs : List Char} {n : Nat} (hn : cs.length < n) (rest : List Char) :
    characters n (cs.flatMap characterText ++ '"' :: rest) = .ok (cs, rest) := by
  induction cs generalizing n with
  | nil =>
    obtain ⟨n, rfl⟩ : ∃ m, n = m + 1 := ⟨n - 1, by omega⟩
    rfl
  | cons c cs ih =>
    obtain ⟨n, rfl⟩ : ∃ m, n = m + 1 := ⟨n - 1, by omega⟩
    rw [List.flatMap_cons, List.append_assoc, characters_cons,
      bind_ok (ih (by simpa using hn))]
    rfl

theorem passCharacters_append {cs : List Char} {n : Nat} (hn : cs.length < n)
    (rest : List Char) :
    passCharacters n (cs.flatMap characterText ++ '"' :: rest) = .ok ((), rest) := by
  induction cs generalizing n with
  | nil =>
    obtain ⟨n, rfl⟩ : ∃ m, n = m + 1 := ⟨n - 1, by omega⟩
    rfl
  | cons c cs ih =>
    obtain ⟨n, rfl⟩ : ∃ m, n = m + 1 := ⟨n - 1, by omega⟩
    rw [List.flatMap_cons, List.append_assoc, passCharacters_cons, ih (by simpa using hn)]

theorem length_lt_body (cs rest : List Char) :
    cs.length < (cs.flatMap characterText ++ '"' :: rest).length + 1 := by
  have hcs : cs.length ≤ (cs.flatMap characterText).length := by
    induction cs with
    | nil => exact Nat.le_refl _
    | cons c cs ih =>
      have hc : 1 ≤ (characterText c).length := by
        obtain ⟨es, htext, -⟩ | ⟨htext, -⟩ := characterText_cases c <;> simp [htext]
      rw [List.flatMap_cons, List.length_append, List.length_cons]
      omega
  rw [List.length_append]
  omega

theorem stringText_append (s : String) (rest : List Char) :
    stringText s ++ rest = '"' :: (s.toList.flatMap characterText ++ '"' :: rest) := by
  simp [stringText]

theorem key_append (s : String) (rest : List Char) :
    key (stringText s ++ rest) = .ok (s, rest) := by
  rw [stringText_append, key, bind_ok rfl]
  change string (s.toList.flatMap characterText ++ '"' :: rest) = _
  unfold string
  rw [characters_append (length_lt_body _ _)]
  simp [Except.map]

theorem passString_append (s : String) (rest : List Char) :
    passString (s.toList.flatMap characterText ++ '"' :: rest) = .ok ((), rest) :=
  passCharacters_append (length_lt_body _ _) rest

/-! ## Values that are passed over -/

theorem colon_cons (rest : List Char) : colon (':' :: rest) = .ok ((), rest) := rfl

theorem takes_anyValue {c : Char} {cs : List Char} {v : Found} (around : Nat)
    (hblank : isBlank c = false) (hlist : c ≠ '[') (hobject : c ≠ '\x7b')
    (h : Takes (scalar c) (c :: cs) v) : Takes (anyValue around) (c :: cs) v := by
  intro rest hrest
  rw [anyValue, List.cons_append, bind_ok (peekPastBlanks_cons hblank _)]
  simp only [hlist, hobject, if_false]
  exact h rest hrest

theorem takes_passValue {c : Char} {cs : List Char} (care : Care) (around : Nat)
    (hblank : isBlank c = false) (hlist : c ≠ '[') (hobject : c ≠ '\x7b')
    (h : Takes (passScalar care c) (c :: cs) ()) :
    Takes (passValue care around) (c :: cs) () := by
  intro rest hrest
  have hpass := h rest hrest
  have hfuel : 3 * (c :: cs ++ rest).length + 3 = (3 * (cs ++ rest).length + 4) + 1 + 1 := by
    simp
    omega
  unfold passValue
  rw [hfuel, passFrom, List.cons_append, bind_ok (peekPastBlanks_cons hblank _)]
  simp only [hlist, hobject, if_false]
  rw [← List.cons_append, bind_ok hpass]
  rfl

/-! ## Variants -/

variable {variants : List (String × Variant α)} {name : String}

theorem variantName_append {v : Variant α} (h : variants.lookup name = some v)
    (rest : List Char) : variantName variants (stringText name ++ rest) = .ok (v, rest) := by
  rw [variantName, bind_ok (key_append name rest), h]
  rfl

theorem takes_bare (h : variants.lookup name = some (.bare a)) :
    Takes (variant variants) (stringText name) a := by
  intro rest _
  have hname := variantName_append h rest
  rw [stringText_append] at hname ⊢
  rw [variant, atValue_cons (by decide), if_pos rfl, bind_ok hname]
  rfl

theorem takes_carrying (h : variants.lookup name = some (.carrying r)) (hr : Takes r text a) :
    Takes (variant variants) (objectText [(name, text)]) a := by
  intro rest _
  have hname := variantName_append h (':' :: (text ++ '\x7d' :: rest))
  have hvalue := hr ('\x7d' :: rest) (closes_cons (.inr rfl) rest)
  have htext : objectText [(name, text)] ++ rest =
      '\x7b' :: (stringText name ++ ':' :: (text ++ '\x7d' :: rest)) := by
    simp [objectText, membersText, memberText]
  have hquote : peekPastBlanks (stringText name ++ ':' :: (text ++ '\x7d' :: rest)) =
      .ok (some '"', stringText name ++ ':' :: (text ++ '\x7d' :: rest)) := by
    rw [stringText_append]
    exact peekPastBlanks_cons (by decide) _
  rw [htext, variant, atValue_cons (by decide), if_neg (by decide), if_pos rfl, bind_ok rfl]
  simp only [List.drop_succ_cons, List.drop_zero]
  rw [bind_ok hquote]
  simp only [if_true]
  rw [bind_ok hname, bind_ok (colon_cons _)]
  simp only []
  rw [bind_ok hvalue, bind_ok (peekPastBlanks_cons (by decide) _)]
  rfl

end Reader

/-! ## Values that no record knows -/

/-- A value that every record passes over. -/
inductive Filler
  | null
  | flag (b : Bool)
  | text (s : String)

namespace Filler

open Reader

def wireText : Filler → List Char
  | .null => nullText
  | .flag b => flagText b
  | .text s => stringText s

def found : Filler → Found
  | .null => .null
  | .flag b => .flag b
  | .text s => .text s

theorem takes_scalar (o : Filler) :
    ∃ c cs, o.wireText = c :: cs ∧ isBlank c = false ∧ c ≠ '[' ∧ c ≠ '\x7b' ∧
      Takes (scalar c) (c :: cs) o.found ∧ Takes (passScalar .shapeOnly c) (c :: cs) () := by
  cases o with
  | null =>
    refine ⟨'n', _, rfl, by decide, by decide, by decide, fun rest _ => scalar_null rest,
      fun rest _ => bind_ok (scalar_null rest)⟩
  | flag b =>
    cases b with
    | false =>
      exact ⟨'f', _, rfl, by decide, by decide, by decide, fun rest _ => scalar_false rest,
        fun rest _ => bind_ok (scalar_false rest)⟩
    | true =>
      exact ⟨'t', _, rfl, by decide, by decide, by decide, fun rest _ => scalar_true rest,
        fun rest _ => bind_ok (scalar_true rest)⟩
  | text s =>
    refine ⟨'"', _, rfl, by decide, by decide, by decide, fun rest _ => ?_, fun rest _ => ?_⟩
    · exact bind_ok (key_append s rest)
    · refine Eq.trans (congrArg _ (stringText_append s rest)) ?_
      exact (bind_ok rfl).trans (passString_append s rest)

theorem takes_anyValue (o : Filler) (around : Nat) :
    Takes (anyValue around) o.wireText o.found := by
  obtain ⟨c, cs, htext, hblank, hlist, hobject, h, -⟩ := o.takes_scalar
  rw [htext]
  exact Reader.takes_anyValue around hblank hlist hobject h

theorem takes_passValue (o : Filler) (around : Nat) :
    Takes (passValue .shapeOnly around) o.wireText () := by
  obtain ⟨c, cs, htext, hblank, hlist, hobject, -, h⟩ := o.takes_scalar
  rw [htext]
  exact Reader.takes_passValue .shapeOnly around hblank hlist hobject h

end Filler

end StickArbiter.Json
