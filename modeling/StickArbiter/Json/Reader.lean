import StickArbiter.Json.Fault

/-!
# Reading a JSON text

A reader takes characters off the front of a text and gives a value, or halts at the first fault.
Here are the parts of which all readers are made: blanks, words and strings.
-/

namespace StickArbiter.Json

abbrev Reader := StateT (List Char) (Except Halt)

namespace Reader

def halt (m : Malformed) : Reader α := fun text => .error ⟨.malformed m, text, 0, true⟩

/-- Halts at the next character, having looked at its first byte. -/
def haltAhead (m : Malformed) : Reader α := fun text => .error ⟨.malformed m, text, 1, true⟩

/-- Halts because a value does not fit. -/
def reject (m : Mismatch) : Reader α := fun text => .error ⟨.mismatch m, text, 0, true⟩

/-- Halts because a value does not fit, at a place that the record around it gives. -/
def rejectWithin (m : Mismatch) : Reader α := fun text => .error ⟨.mismatch m, text, 0, false⟩

def isBlank (c : Char) : Bool := c = ' ' || c = '\n' || c = '\t' || c = '\r'

def peek : Reader (Option Char) := fun text => .ok (text.head?, text)

/-- The next character that is not blank; the blanks before it are taken. -/
def peekPastBlanks : Reader (Option Char) := fun text =>
  let text := text.dropWhile isBlank
  .ok (text.head?, text)

def take : Reader (Option Char) := fun text => .ok (text.head?, text.drop 1)

def word : List Char → Reader Unit
  | [] => pure ()
  | c :: cs => do
    match ← peek with
    | none => halt .endInValue
    | some d =>
      if d = c then
        let _ ← take
        word cs
      else haltAhead .wrongWord

/-! ## Strings -/

def hexDigit? (c : Char) : Option Nat :=
  if c.isDigit then some (c.toNat - 48)
  else if 'a' ≤ c && c ≤ 'f' then some (c.toNat - 87)
  else if 'A' ≤ c && c ≤ 'F' then some (c.toNat - 55)
  else none

/-- The value of hexadecimal digits; nothing if one of them is none. -/
def hexValue? (cs : List Char) : Option Nat :=
  cs.foldlM (fun n c => (hexDigit? c).map (16 * n + ·)) 0

/-- Four hexadecimal digits. A text with less than four bytes left is cut off, whatever they are. -/
def fourHexDigits : Reader Nat := fun text =>
  if (bytewise (text.take 4)).length < 4 then halt .endInString []
  else match hexValue? (text.take 4) with
    | some n => .ok (n, text.drop 4)
    | none => .error ⟨.malformed .wrongEscape, text, 4, true⟩

/-- What a short escape stands for. -/
def shortEscape? : Char → Option Char
  | '"' => some '"'
  | '\\' => some '\\'
  | '/' => some '/'
  | 'b' => some '\x08'
  | 'f' => some '\x0c'
  | 'n' => some '\n'
  | 'r' => some '\r'
  | 't' => some '\t'
  | _ => none

def isLeading (n : Nat) : Bool := 0xd800 ≤ n && n < 0xdc00

def isTrailing (n : Nat) : Bool := 0xdc00 ≤ n && n < 0xe000

/-- The character that two surrogates stand for. -/
def ofSurrogates (leading trailing : Nat) : Char :=
  .ofNat (0x10000 + (leading - 0xd800) * 0x400 + (trailing - 0xdc00))

/-- A character that has to follow a leading surrogate. -/
def pairMark (c : Char) : Reader Unit := do
  match ← peek with
  | none => halt .endInString
  | some d => if d = c then let _ ← take else haltAhead .halfSurrogatePair

/-- The character given by its number. Two surrogates make one character; one alone is a fault. -/
def numberedEscape : Reader Char := do
  let n ← fourHexDigits
  if isTrailing n then halt .loneSurrogate
  else if isLeading n then
    pairMark '\\'
    pairMark 'u'
    let m ← fourHexDigits
    if isTrailing m then pure (ofSurrogates n m) else halt .loneSurrogate
  else pure (.ofNat n)

/-- The character that an escape stands for, after its backslash. -/
def escape : Reader Char := do
  match ← peek with
  | none => halt .endInString
  | some 'u' =>
    let _ ← take
    numberedEscape
  | some c => match shortEscape? c with
    | some d =>
      let _ ← take
      pure d
    | none => haltAhead .wrongEscape

/-- The characters of a string up to its closing quote. The fuel bounds their number. -/
def characters : Nat → Reader (List Char)
  | 0 => halt .endInString
  | n + 1 => do
    match ← take with
    | none => halt .endInString
    | some '"' => pure []
    | some '\\' => do
      let c ← escape
      let cs ← characters n
      pure (c :: cs)
    | some c =>
      if c < ' ' then halt .controlCharacter
      else do
        let cs ← characters n
        pure (c :: cs)

def string : Reader String := fun text =>
  (characters (text.length + 1) text).map fun (cs, rest) => (String.ofList cs, rest)

/-- Passes over a string without reading it: escapes have to be escapes, but surrogates may stand
alone. -/
def passCharacters : Nat → Reader Unit
  | 0 => halt .endInString
  | n + 1 => do
    match ← peek with
    | none => halt .endInString
    | some '"' => let _ ← take
    | some '\\' => do
      let _ ← take
      match ← peek with
      | none => halt .endInString
      | some 'u' =>
        let _ ← take
        let _ ← fourHexDigits
      | some c => if (shortEscape? c).isSome then let _ ← take else haltAhead .wrongEscape
      passCharacters n
    | some c =>
      if c < ' ' then halt .controlCharacter
      else do
        let _ ← take
        passCharacters n

def passString : Reader Unit := fun text => passCharacters (text.length + 1) text

end Reader

end StickArbiter.Json
