import StickArbiter.Gamepad.Sticks

/-!
# Events as a device sends them

A device sends an event in 24 bytes: the time in the first 16, then the kind and the code in two
bytes each and the value in four, all with the lowest byte first.
-/

namespace StickArbiter.Gamepad

def packetSize : Nat := 24

/-- The number in some bytes, the lowest first. -/
def ofBytes (bs : List UInt8) : Nat := bs.foldr (fun b n => b.toNat + 256 * n) 0

def Event.ofPacket (bs : List UInt8) : Event :=
  let field (start size : Nat) : Nat := ofBytes ((bs.drop start).take size)
  { kind := field 16 2, code := field 18 2, value := Int.ofNat (field 20 4) }

theorem toInt_value_ofPacket (bs : List UInt8) :
    (Event.ofPacket bs).value.toInt =
      Int.bmod (ofBytes ((bs.drop 20).take 4)) Int32.size :=
  Int32.toInt_ofInt

/-- The events in some packets that follow one another; the fuel bounds their number. -/
def Event.ofPackets : Nat → List UInt8 → List Event
  | 0, _ => []
  | n + 1, bs =>
    if bs.length < packetSize then []
    else ofPacket (bs.take packetSize) :: ofPackets n (bs.drop packetSize)

example :
    Event.ofPacket (List.replicate 16 0 ++ [3, 0, 5, 0, 255, 255, 255, 255]) = ⟨3, 5, -1⟩ := by
  decide

end StickArbiter.Gamepad
