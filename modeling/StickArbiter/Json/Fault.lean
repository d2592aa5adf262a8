import StickArbiter.Decode.Mismatch

/-!
# What can be wrong with a JSON text

A text is malformed, or cut off, or well formed so far and yet holds a value that does not fit. A
text is read from its front, and the first fault met is the one reported.
-/

namespace StickArbiter.Json

/-- How a text breaks the grammar, or where it ends too early. -/
inductive Malformed
  | endInList
  | endInObject
  | endInString
  | endInValue
  | noColon
  | noListSeparator
  | noObjectSeparator
  | wrongWord
  | noValue
  | wrongEscape
  | wrongNumber
  | numberTooLarge
  | controlCharacter
  | keyNotString
  | loneSurrogate
  | halfSurrogatePair
  | trailingComma
  | trailingText
  | tooDeep
deriving DecidableEq, Repr

/-- Whether the text would have to go on. -/
def Malformed.isCutOff : Malformed → Bool
  | .endInList | .endInObject | .endInString | .endInValue => true
  | _ => false

def Malformed.message : Malformed → String
  | .endInList => "EOF while parsing a list"
  | .endInObject => "EOF while parsing an object"
  | .endInString => "EOF while parsing a string"
  | .endInValue => "EOF while parsing a value"
  | .noColon => "expected `:`"
  | .noListSeparator => "expected `,` or `]`"
  | .noObjectSeparator => "expected `,` or `\x7d`"
  | .wrongWord => "expected ident"
  | .noValue => "expected value"
  | .wrongEscape => "invalid escape"
  | .wrongNumber => "invalid number"
  | .numberTooLarge => "number out of range"
  | .controlCharacter => "control character (\\u0000-\\u001F) found while parsing a string"
  | .keyNotString => "key must be a string"
  | .loneSurrogate => "lone leading surrogate in hex escape"
  | .halfSurrogatePair => "unexpected end of hex escape"
  | .trailingComma => "trailing comma"
  | .trailingText => "trailing characters"
  | .tooDeep => "recursion limit exceeded"

/-- Why a text cannot be read. -/
inductive Fault
  | malformed (m : Malformed)
  | mismatch (m : Mismatch)
deriving DecidableEq

/-- How reals are written: positionally for exponents from -5 to 15. -/
def realLayout : Decimal.Layout :=
  { positional := some (-5, 15), wholePoint := true, plusSign := true, notANumber := "null",
    infinity := "null" }

def Fault.message : Fault → String
  | .malformed m => m.message
  | .mismatch m => m.message realLayout

/-- A fault and what of the text had not been read when it was met. -/
structure Halt where
  fault : Fault
  left : List Char
  /-- How many bytes of that had been looked at. -/
  looked : Nat := 0
  /-- The place is final; otherwise the record around the value still gives it one. -/
  settled : Bool := true

/-- A fault and its place in the text. Lines and columns count from 1, columns in bytes; a fault
that concerns no place has none. -/
structure ReadError where
  fault : Fault
  place : Option (Nat × Nat)
deriving DecidableEq

/-- A text with each character as often as it has bytes. -/
def bytewise (text : List Char) : List Char := text.flatMap fun c => List.replicate c.utf8Size c

/-- The line and the column reached behind a text. -/
def placeAfter (read : List Char) : Nat × Nat :=
  (read.count '\n' + 1, (read.reverse.takeWhile (· ≠ '\n')).length)

/-- The error of a fault met in a text. -/
def Halt.error (h : Halt) (text : List Char) : ReadError :=
  let read := text.take (text.length - h.left.length)
  let place := placeAfter (bytewise read ++ (bytewise h.left).take h.looked)
  { fault := h.fault, place := if h.settled then some place else none }

def ReadError.message (e : ReadError) : String :=
  match e.place with
  | some (line, column) =>
    e.fault.message ++ " at line " ++ toString line ++ " column " ++ toString column
  | none => e.fault.message

end StickArbiter.Json
