import StickArbiter.Toml.Fault

/-!
# Readers of a TOML text

A reader takes something off the front of a text. Where it cannot, it halts: it either gives way, so
that another reading may be tried from an earlier place, or the halt is settled and ends the whole
reading. What a halt tells grows on its way out: the parts around it have names and expectations.
-/

namespace StickArbiter.Toml

abbrev Reader := StateT (List Char) (Except Halt)

namespace Reader

/-! ## Ways to halt -/

/-- Gives way. -/
def giveWay : Reader α := fun text => .error ⟨{}, text, false⟩

/-- Halts for good. -/
def refuse (f : Fault) : Reader α := fun text => .error ⟨f, text, true⟩

/-- Reads `r`, which does not give way. -/
def settle (r : Reader α) : Reader α := fun text =>
  (r text).mapError fun h => { h with settled := true }

/-- Reads `r`, or `s` where `r` gives way. -/
def either (r s : Reader α) : Reader α := fun text =>
  match r text with
  | .ok x => .ok x
  | .error h => if h.settled then .error h else s text

def optional (r : Reader α) : Reader (Option α) := fun text =>
  match r text with
  | .ok (a, rest) => .ok (some a, rest)
  | .error h => if h.settled then .error h else .ok (none, text)

/-- Reads `r` until it gives way, at most once for each character of a bound. -/
def upTo (r : Reader α) : List Char → Reader (List α)
  | [] => pure []
  | _ :: bound => do
    match ← optional r with
    | none => pure []
    | some a =>
      let as ← upTo r bound
      pure (a :: as)

/-- Reads `r`, which takes something, until it gives way. -/
def many (r : Reader α) : Reader (List α) := fun text => upTo r text text

/-- Names the part of the text that `r` reads. -/
def within (part : String) (r : Reader α) : Reader α := fun text =>
  (r text).mapError (Halt.tell (Fault.within part))

/-- Tells what was expected where `r` halts. -/
def expecting (what : List String) (r : Reader α) : Reader α := fun text =>
  (r text).mapError (Halt.tell (Fault.expecting what))

/-- Makes something of what `r` reads. A fault in that is met where `r` began, and gives way. -/
def checked (r : Reader α) (make : α → Except Fault β) : Reader β := fun text =>
  match r text with
  | .error h => .error h
  | .ok (a, rest) => match make a with
    | .ok b => .ok (b, rest)
    | .error f => .error ⟨f, text, false⟩

/-- Reads `r`, and makes something of it without giving way. -/
def checkedForGood (r : Reader α) (make : α → Except Fault β) : Reader β := fun text =>
  match r text with
  | .error h => .error h
  | .ok _ => settle (checked r make) text

/-! ## Characters -/

def peek : Reader (Option Char) := fun text => .ok (text.head?, text)

def character (p : Char → Bool) : Reader Char := fun text =>
  match text with
  | c :: rest => if p c then .ok (c, rest) else giveWay text
  | [] => giveWay text

def mark (cs : List Char) : Reader Unit := fun text =>
  if cs.isPrefixOf text then .ok ((), text.drop cs.length) else giveWay text

def takeWhile (p : Char → Bool) : Reader (List Char) := fun text =>
  .ok (text.takeWhile p, text.dropWhile p)

def isBlank (c : Char) : Bool := c = ' ' || c = '\t'

def blanks : Reader Unit := do
  let _ ← takeWhile isBlank

/-- Characters that stand for themselves in comments and strings. -/
def isPlain (c : Char) : Bool := c = '\t' || (' ' ≤ c && c.toNat ≠ 0x7f)

/-! ## Lines -/

/-- A line end. A carriage return alone is none. -/
def newline : Reader Unit :=
  either (mark ['\n']) do
    mark ['\r']
    mark ['\n']

/-- The end of a line: a line end or the end of the text. -/
def lineEnd : Reader Unit :=
  either newline fun text => if text.isEmpty then .ok ((), text) else giveWay text

def comment : Reader Unit := do
  mark ['#']
  let _ ← takeWhile isPlain

/-- What may stand behind a value or a header on its line. -/
def trailing : Reader Unit := expecting ["newline", "`#`"] do
  blanks
  let _ ← optional comment
  lineEnd

/-- Blanks, comments and line ends between the values of a list. Each line takes a character of the
bound. -/
def gapWithin : List Char → Reader Unit
  | [] => pure ()
  | _ :: bound => do
    blanks
    match ← peek with
    | some '#' =>
      comment
      newline
      gapWithin bound
    | some '\n' | some '\r' =>
      newline
      gapWithin bound
    | _ => pure ()

def gap : Reader Unit := fun text => gapWithin text text

/-! ## Strings on one line -/

def hexDigit? (c : Char) : Option Nat :=
  if c.isDigit then some (c.toNat - 48)
  else if 'a' ≤ c && c ≤ 'f' then some (c.toNat - 87)
  else if 'A' ≤ c && c ≤ 'F' then some (c.toNat - 55)
  else none

def digitsValue (base : Nat) (cs : List Char) : Nat :=
  cs.foldl (fun n c => base * n + (hexDigit? c).getD 0) 0

def hexDigits (count : Nat) : Reader (List Char) := fun text =>
  let digits := (text.take count).takeWhile fun c => (hexDigit? c).isSome
  if digits.length = count then .ok (digits, text.drop count) else giveWay text

/-- A character given by its number in `count` hexadecimal digits. -/
def numberedCharacter (count : Nat) : Reader Char :=
  settle <| within ("unicode " ++ toString count ++ "-digit hex code") <|
    checked (hexDigits count) fun ds =>
      let n := digitsValue 16 ds
      if n.isValidChar then .ok (Char.ofNat n) else .error (.ofBreach .outOfRange)

/-- Halts behind an escape that is none, or in front of one whose character has several bytes. -/
def refuseEscape (c : Char) : Reader α := fun text =>
  refuse
    { part := some "escape sequence"
      expected := ["`b`", "`f`", "`n`", "`r`", "`t`", "`u`", "`U`", "`\\`", "`\"`"] }
    (if c.utf8Size = 1 then text.drop 1 else text)

def escape : Reader Char := do
  mark ['\\']
  match ← peek with
  | none => giveWay
  | some c =>
    let short (d : Char) : Reader Char := do
      mark [c]
      pure d
    match c with
    | 'b' => short '\x08'
    | 'f' => short '\x0c'
    | 'n' => short '\n'
    | 'r' => short '\r'
    | 't' => short '\t'
    | '\\' => short '\\'
    | '"' => short '"'
    | 'u' =>
      mark ['u']
      numberedCharacter 4
    | 'U' =>
      mark ['U']
      numberedCharacter 8
    | _ => refuseEscape c

def basicString : Reader String := do
  mark ['"']
  let cs ← many (either (character fun c => isPlain c && c ≠ '"' && c ≠ '\\') escape)
  settle (within "basic string" (mark ['"']))
  pure (String.ofList cs)

/-- A string between apostrophes, in which nothing is escaped. -/
def literalString : Reader String := within "literal string" do
  mark ['\'']
  let cs ← takeWhile fun c => isPlain c && c ≠ '\''
  settle (mark ['\''])
  pure (String.ofList cs)

/-! ## Strings of several lines -/

/-- A line end, which is written in one way. -/
def lineBreak : Reader (List Char) := do
  newline
  pure ['\n']

/-- A backslash at the end of a line, and all blanks and line ends up to the next character. -/
def foldedBreak : Reader (List Char) := do
  mark ['\\']
  blanks
  newline
  let _ ← many (either newline do
    let _ ← character isBlank)
  pure []

/-- One or two quotes in front of a rest that passes a test. -/
def quotesBefore (quote : Char) (p : List Char → Bool) : Reader (List Char) :=
  let before (quotes : List Char) : Reader (List Char) := do
    mark quotes
    if p (← get) then pure quotes else giveWay
  either (before [quote, quote]) (before [quote])

/-- Whether the rest begins with something else than a quote. -/
def goesOn (quote : Char) (text : List Char) : Bool := text.head?.any (· ≠ quote)

/-- The closing quotes, with up to two more before them that belong to the string. -/
def closingQuotes (quote : Char) : Reader (List Char) := do
  let three := [quote, quote, quote]
  let kept ← optional (quotesBefore quote fun text => three.isPrefixOf text)
  mark three
  pure (kept.getD [])

def basicContent : Reader (List Char) :=
  either
    (do
      let c ← character fun c => isPlain c && c ≠ '"' && c ≠ '\\'
      pure [c])
    (either foldedBreak (either (do
      let c ← escape
      pure [c]) lineBreak))

/-- What stands between the quotes: characters, and quotes that are not the closing ones. Quotes
behind which the string cannot go on are taken all the same. Each quote takes a character of the
bound. -/
def basicBody : List Char → Reader (List Char)
  | [] => pure []
  | _ :: bound => do
    let cs ← many basicContent
    match ← optional (quotesBefore '"' (goesOn '"')) with
    | none => pure cs.flatten
    | some quotes =>
      match ← optional basicContent with
      | none => pure (cs.flatten ++ quotes)
      | some c =>
        let rest ← basicBody bound
        pure (cs.flatten ++ quotes ++ c ++ rest)

/-- A string of several lines between three double quotes at each end. -/
def longBasicString : Reader String := within "multiline basic string" do
  mark ['"', '"', '"']
  settle do
    let _ ← optional newline
    let cs ← basicBody (← get)
    let last ← closingQuotes '"'
    pure (String.ofList (cs ++ last))

def literalContent : Reader (List Char) :=
  either
    (do
      let c ← character fun c => isPlain c && c ≠ '\''
      pure [c])
    lineBreak

/-- A string of several lines between three apostrophes at each end. -/
def longLiteralString : Reader String := within "multiline literal string" do
  mark ['\'', '\'', '\'']
  settle do
    let _ ← optional newline
    let cs ← many literalContent
    let more ← many do
      let quotes ← quotesBefore '\'' (goesOn '\'')
      let c ← literalContent
      let cs ← many literalContent
      pure (quotes ++ c ++ cs.flatten)
    let last ← closingQuotes '\''
    pure (String.ofList (cs.flatten ++ more.flatten ++ last))

def string : Reader String :=
  either longBasicString (either basicString (either longLiteralString literalString))

/-! ## Keys -/

def isBare (c : Char) : Bool := c.isAlphanum || c = '-' || c = '_'

def bareKey : Reader String := do
  let c ← character isBare
  let cs ← takeWhile isBare
  pure (String.ofList (c :: cs))

/-- One part of a key, with blanks around it. -/
def keyPart : Reader Name := do
  blanks
  let before ← get
  let s ← match ← peek with
    | some '"' => basicString
    | some '\'' => literalString
    | _ => bareKey
  let behind ← get
  blanks
  pure ⟨s, ⟨before, behind⟩⟩

/-- The greatest number of parts of a key, and of lists and braces around a value. -/
def maxDepth : Nat := 79

/-- A key: its parts, at least one. A point that no part follows is left where it is. -/
def key : Reader (List Name) :=
  checked
    (within "key" do
      let first ← keyPart
      let more ← many do
        mark ['.']
        keyPart
      pure (first :: more))
    fun parts => if maxDepth < parts.length then .error (.ofBreach .tooDeep) else .ok parts

def equalsSign : Reader Unit := expecting ["`.`", "`=`"] (mark ['='])

end Reader

end StickArbiter.Toml
