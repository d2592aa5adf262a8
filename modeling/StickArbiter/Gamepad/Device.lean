import StickArbiter.Decimal.Layout
import StickArbiter.Disk.Fault
import StickArbiter.Log
import StickArbiter.Sorted
import StickArbiter.Text.Quoted

/-!
# Gamepad devices

A gamepad is opened at a path, or found: of the listed devices that are the known controller and can
be opened, the one with the least path is taken, in whatever order they are listed.
-/

namespace StickArbiter.Gamepad

structure Device where
  path : String
  vendor : Nat := 0x054c
  product : Nat := 0x0ce6
  /-- Why it cannot be opened. -/
  openFault : Option IoFault := none
  /-- Why its events cannot be waited for. -/
  streamFault : Option IoFault := none
deriving DecidableEq

structure Devices where
  /-- Those in the directory of input devices, in any order. -/
  listed : Except IoFault (List Device)
  /-- Why one in the directory could not be read while they were listed. -/
  entryFault : Option IoFault := none
  /-- The one at a path elsewhere, if there is anything. -/
  elsewhere : String → Option Device := fun _ => none

/-- Why there is no gamepad to read. -/
inductive Fault
  | notListed (f : IoFault)
  | entryNotRead (f : IoFault)
  | notOpened (path : String) (f : IoFault)
  | notStreamed (path : String) (f : IoFault)
  | noController
deriving DecidableEq

def inputDirectory : String := "/dev/input"

def Fault.message : Fault → String
  | .notListed f => "Input source error: Failed to read " ++ inputDirectory ++ ": " ++ f.message
  | .entryNotRead f => "Input source error: Failed to read directory entry: " ++ f.message
  | .notOpened path f => "Input source error: Failed to open " ++ path ++ ": " ++ f.message
  | .notStreamed path f => "Input source error: Failed to stream " ++ path ++ ": " ++ f.message
  | .noController => "No joystick input device found"

namespace Device

def name (d : Device) : List Char := (d.path.toList.reverse.takeWhile (· ≠ '/')).reverse

def sendsEvents (d : Device) : Bool := "event".toList.isPrefixOf d.name

def isController (d : Device) : Bool := d.vendor = 0x054c && d.product = 0x0ce6

/-- The order of paths, character by character. -/
def before (a b : Device) : Bool := a.path.toList.le b.path.toList

end Device

/-! ## Finding the controller -/

/-- What a search has to say. -/
inductive SearchEvent
  | seen (d : Device)
  | notOpened (path : String) (f : IoFault)
  | chosen (path : String)
deriving DecidableEq

/-- A number below `2 ^ 16` in four digits. -/
def hexText (n : Nat) : String :=
  let digits := Nat.toDigits 16 n
  "0x" ++ String.ofList (List.replicate (4 - digits.length) '0' ++ digits)

namespace SearchEvent

def level : SearchEvent → Level
  | .chosen _ => .info
  | _ => .debug

def text : SearchEvent → String
  | .seen d =>
    "Found input device: " ++ d.path ++ " (vendor: " ++ hexText d.vendor ++ ", product: "
      ++ hexText d.product ++ ")"
  | .notOpened path f => "Could not open " ++ path ++ ": " ++ f.message
  | .chosen path => "Found PS5 DualSense controller at: " ++ path

def line (e : SearchEvent) : LogLine := ⟨e.level, "manual_control::sources::joystick", e.text⟩

end SearchEvent

structure Search (α : Type) where
  log : List SearchEvent := []
  result : α

def search : List Device → Search (Option Device)
  | [] => ⟨[], none⟩
  | d :: ds =>
    match d.openFault with
    | some f =>
      let s := search ds
      { s with log := .notOpened d.path f :: s.log }
    | none =>
      if d.isController then ⟨[.seen d, .chosen d.path], some d⟩
      else
        let s := search ds
        { s with log := .seen d :: s.log }

/-- Whether a search may end at a device. -/
def Device.suits (d : Device) : Bool := d.openFault.isNone && d.isController

theorem search_result (ds : List Device) : (search ds).result = ds.find? Device.suits := by
  induction ds with
  | nil => rfl
  | cons d ds ih =>
    cases h : d.openFault <;> cases c : d.isController <;>
      simp [search, Device.suits, List.find?, h, c, ih]

namespace Devices

def candidates (ds : List Device) : List Device :=
  (Sorted.ofList Device.before ds).filter Device.sendsEvents

def find (ds : Devices) : Search (Except Fault Device) :=
  match ds.listed with
  | .error f => ⟨[], .error (.notListed f)⟩
  | .ok listed =>
    match ds.entryFault with
    | some f => ⟨[], .error (.entryNotRead f)⟩
    | none =>
      let s := search (candidates listed)
      ⟨s.log, s.result.elim (.error .noController) .ok⟩

/-- The device at a path, listed or not. -/
def device? (ds : Devices) (path : String) : Option Device :=
  ((ds.listed.toOption.getD []).find? (·.path = path)).or (ds.elsewhere path)

/-- Opens the device at a path; there is nothing where no device is. -/
def openAt (ds : Devices) (path : String) : Except Fault Device :=
  if path.toList.contains '\x00' then .error (.notOpened path .nulInPath)
  else match ds.device? path with
  | none => .error (.notOpened path .noEntry)
  | some d => match d.openFault with
    | some f => .error (.notOpened path f)
    | none => .ok d

/-- Opens the device at a path, or the one found where the path is empty. -/
def openDevice (ds : Devices) (path : String) : Search (Except Fault Device) :=
  if path.isEmpty then ds.find else ⟨[], ds.openAt path⟩

end Devices

/-- An open gamepad in a line of text. -/
def Device.description (d : Device) (deadzone : Float32) : String :=
  "JoystickSource \x7b device_path: " ++ Text.quoted d.path ++ ", deadzone: "
    ++ Decimal.Layout.debug.float32 deadzone ++ ", .. \x7d"

def Device.checkStream (d : Device) : Except Fault Unit :=
  match d.streamFault with
  | some f => .error (.notStreamed d.path f)
  | none => .ok ()

end StickArbiter.Gamepad
