/-!
# Faults of files and devices

What the system says when a file or a device cannot be used, and the two faults that are found
without it: a path with a NUL in it, and a file whose bytes are no UTF-8 text.
-/

namespace StickArbiter

/-- Why a file or a device cannot be used. -/
inductive IoFault
  | notPermitted
  | noEntry
  | denied
  | taken
  | noDevice
  | notDirectory
  | isDirectory
  | notInputDevice
  | nameTooLong
  | notText
  /-- A path with a NUL in it. -/
  | nulInPath
  /-- A fault in the device's own words. -/
  | other (text : String)
deriving DecidableEq, Repr

/-- A fault with the number under which the system knows it. -/
def IoFault.numbered (text : String) (number : Nat) : String :=
  text ++ " (os error " ++ toString number ++ ")"

def IoFault.message : IoFault → String
  | .notPermitted => numbered "Operation not permitted" 1
  | .noEntry => numbered "No such file or directory" 2
  | .denied => numbered "Permission denied" 13
  | .taken => numbered "File exists" 17
  | .noDevice => numbered "No such device" 19
  | .notDirectory => numbered "Not a directory" 20
  | .isDirectory => numbered "Is a directory" 21
  | .notInputDevice => numbered "Inappropriate ioctl for device" 25
  | .nameTooLong => numbered "File name too long" 36
  | .notText => "stream did not contain valid UTF-8"
  | .nulInPath => "file name contained an unexpected NUL byte"
  | .other text => text

def textOfBytes (bytes : ByteArray) : Except IoFault String :=
  match String.fromUTF8? bytes with
  | some s => .ok s
  | none => .error .notText

end StickArbiter
