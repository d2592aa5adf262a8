import StickArbiter.Decimal.Layout

/-!
# Writing JSON

Values are written without blanks. Single-precision numbers have the fewest digits that read back,
positionally for exponents from -6 to 12; what is no number is written as null.
-/

namespace StickArbiter.Json

/-- How single-precision numbers are written. -/
def singleLayout : Decimal.Layout :=
  { positional := some (-6, 12), wholePoint := true, plusSign := true, notANumber := "null",
    infinity := "null" }

/-- A single-precision number; an infinite one has no sign, since it is written as null. -/
def singleText (x : Float32) : List Char :=
  match Decimal.Binary.ofFloat32 x with
  | .infinite _ => "null".toList
  | b => singleLayout.write b

def naturalText (n : Nat) : List Char := Nat.toDigits 10 n

def flagText (b : Bool) : List Char := if b then "true".toList else "false".toList

def nullText : List Char := "null".toList

def optionalText (f : α → List Char) : Option α → List Char
  | some a => f a
  | none => nullText

/-- How one character is written inside a string. -/
def characterText (c : Char) : List Char :=
  if c = '"' then ['\\', '"']
  else if c = '\\' then ['\\', '\\']
  else if c = '\x08' then ['\\', 'b']
  else if c = '\x0c' then ['\\', 'f']
  else if c = '\n' then ['\\', 'n']
  else if c = '\r' then ['\\', 'r']
  else if c = '\t' then ['\\', 't']
  else if c < ' ' then
    ['\\', 'u', '0', '0', Nat.digitChar (c.toNat / 16), Nat.digitChar (c.toNat % 16)]
  else [c]

def stringText (s : String) : List Char := '"' :: (s.toList.flatMap characterText ++ ['"'])

/-- A member of an object: its key and the text of its value. -/
abbrev MemberText := String × List Char

def memberText (m : MemberText) : List Char := stringText m.1 ++ ':' :: m.2

def membersText : List MemberText → List Char
  | [] => []
  | [m] => memberText m
  | m :: ms => memberText m ++ ',' :: membersText ms

def objectText (ms : List MemberText) : List Char := '\x7b' :: (membersText ms ++ ['\x7d'])

end StickArbiter.Json
