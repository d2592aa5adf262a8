import StickArbiter.Text.Printable

/-!
# Quoted text

A text between double quotes, as messages show it: quotes and backslashes are escaped, and what
cannot be shown is given by its number.
-/

namespace StickArbiter.Text

/-- The escape that names a character by its number. -/
def numberedEscape (c : Char) : List Char :=
  '\\' :: 'u' :: '\x7b' :: (Nat.toDigits 16 c.toNat ++ ['\x7d'])

/-- How one character is shown between quotes. -/
def escaped (c : Char) : List Char :=
  if c = '\\' then ['\\', '\\']
  else if c = '"' then ['\\', '"']
  else if c = '\n' then ['\\', 'n']
  else if c = '\r' then ['\\', 'r']
  else if c = '\t' then ['\\', 't']
  else if c = '\x00' then ['\\', '0']
  else if isPrintable c then [c]
  else numberedEscape c

def quoted (s : String) : String :=
  String.ofList ('"' :: (s.toList.flatMap escaped ++ ['"']))

example : quoted "a\"b" = "\"a\\\"b\"" := by decide +kernel

example : (escaped (Char.ofNat 0x200b)) = "\\u\x7b200b\x7d".toList := by decide +kernel

end StickArbiter.Text
