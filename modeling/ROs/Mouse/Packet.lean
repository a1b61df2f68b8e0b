import Mathlib.Data.Vector.Basic
import Mathlib.Data.List.Basic
import Mathlib.Tactic.Common
import ROs.Lib.Feed

/-!
# PS/2 mouse packets

`add_byte` of `mouse.rs`: the decoder that the interrupt handler feeds one byte at a time, and
`MouseEvent`, what it decodes.  `addByte` returns the event it hands to `MOUSE_QUEUE.push`.

`MouseEvent.encode` is the format the decoder reads: three bytes, the first with the buttons and
the two signs, each 9-bit movement split over its sign and a byte of its own.  The buttons and
signs of the first byte are read back bit by bit (`statusByte`), the movements arithmetically
(`movement_lowByte`), so that `decodePacket` and `encode` invert each other.
-/

namespace ROs

/-- `MouseEvent`. -/
structure MouseEvent where
  dx : Int16
  dy : Int16
  left : Bool
  right : Bool
  middle : Bool
  deriving Repr, DecidableEq

/-! ### Movements -/

/-- The movement in the byte `low`, whose sign is the bit `sign` of the first byte. -/
def movement (b0 sign low : UInt8) : Int16 :=
  if b0 &&& sign ≠ 0 then low.toUInt16.toInt16 - 256 else low.toUInt16.toInt16

/-- The low 8 bits of a movement. -/
def lowByte (v : Int16) : UInt8 := v.toUInt16.toUInt8

theorem toInt_toInt16 (b : UInt8) : b.toUInt16.toInt16.toInt = b.toNat := by
  have := b.toNat_lt
  rw [← Int16.toInt_toBitVec, UInt16.toBitVec_toInt16, UInt8.toBitVec_toUInt16,
    BitVec.toInt_eq_toNat_of_lt]
  · simp
  · simp only [BitVec.toNat_setWidth, UInt8.toNat_toBitVec]
    omega

theorem toInt_movement (b0 sign low : UInt8) :
    (movement b0 sign low).toInt = if b0 &&& sign ≠ 0 then (low.toNat : ℤ) - 256 else low.toNat := by
  have := low.toNat_lt
  rw [movement]
  split
  · rw [Int16.toInt_sub, toInt_toInt16, show (256 : Int16).toInt = 256 from rfl,
      Int.bmod_eq_of_le] <;> omega
  · exact toInt_toInt16 low

theorem toNat_lowByte (v : Int16) : ((lowByte v).toNat : ℤ) = v.toInt % 256 := by
  have hlt := v.toBitVec.isLt
  have hv : v.toUInt16.toNat = v.toBitVec.toNat := rfl
  rw [lowByte, UInt16.toNat_toUInt8, ← Int16.toInt_toBitVec, BitVec.toInt_eq_toNat_bmod,
    Int.bmod_def, hv, show ((2 ^ 16 : ℕ) : ℤ) = 65536 from rfl]
  split <;> omega

/-- The byte of a movement is its low 8 bits. -/
theorem lowByte_movement (b0 sign low : UInt8) : lowByte (movement b0 sign low) = low := by
  have hlt := low.toNat_lt
  have h := toNat_lowByte (movement b0 sign low)
  rw [toInt_movement] at h
  refine UInt8.toNat_inj.1 ?_
  split at h <;> omega

/-- A movement has 9 bits. -/
theorem movement_range (b0 sign low : UInt8) :
    -256 ≤ (movement b0 sign low).toInt ∧ (movement b0 sign low).toInt ≤ 255 := by
  have hlt := low.toNat_lt
  have h := toInt_movement b0 sign low
  split at h <;> omega

/-- A movement is negative when its sign bit is set. -/
theorem movement_sign (b0 sign low : UInt8) :
    decide ((movement b0 sign low).toInt < 0) = (b0 &&& sign != 0) := by
  have hlt := low.toNat_lt
  have h := toInt_movement b0 sign low
  rw [Bool.eq_iff_iff, decide_eq_true_iff, bne_iff_ne]
  by_cases hs : b0 &&& sign ≠ 0
  · rw [if_pos hs] at h
    exact ⟨fun _ => hs, fun _ => by omega⟩
  · rw [if_neg hs] at h
    exact ⟨fun _ => by omega, fun hs' => absurd hs' hs⟩

/-- A movement of 9 bits is read back from its sign and its low 8 bits. -/
theorem movement_lowByte {b0 sign : UInt8} {v : Int16} (hlo : -256 ≤ v.toInt) (hhi : v.toInt ≤ 255)
    (hsign : b0 &&& sign ≠ 0 ↔ v.toInt < 0) : movement b0 sign (lowByte v) = v := by
  have h := toInt_movement b0 sign (lowByte v)
  rw [toNat_lowByte] at h
  refine Int16.toInt_inj.1 ?_
  by_cases hv : v.toInt < 0
  · rw [if_pos (hsign.2 hv)] at h
    omega
  · rw [if_neg (fun hs => hv (hsign.1 hs))] at h
    omega

/-! ### The first byte -/

/-- The first byte: bit 3, the buttons and the signs of the two movements. -/
def statusByte (left right middle xSign ySign : Bool) : UInt8 :=
  0x08 ||| (if left then 0x01 else 0) ||| (if right then 0x02 else 0) |||
    (if middle then 0x04 else 0) ||| (if xSign then 0x10 else 0) ||| (if ySign then 0x20 else 0)

section

variable (left right middle xSign ySign : Bool)

theorem statusByte_sync : statusByte left right middle xSign ySign &&& 0x08 ≠ 0 := by
  revert left right middle xSign ySign; decide

theorem statusByte_overflow : statusByte left right middle xSign ySign &&& 0xC0 = 0 := by
  revert left right middle xSign ySign; decide

/-- The buttons and the signs are read back. -/
theorem statusByte_bits :
    (statusByte left right middle xSign ySign &&& 0x01 != 0) = left ∧
      (statusByte left right middle xSign ySign &&& 0x02 != 0) = right ∧
      (statusByte left right middle xSign ySign &&& 0x04 != 0) = middle ∧
      (statusByte left right middle xSign ySign &&& 0x10 != 0) = xSign ∧
      (statusByte left right middle xSign ySign &&& 0x20 != 0) = ySign := by
  revert left right middle xSign ySign; decide

end

/-- A byte with bit 3 set and the overflow bits clear holds nothing else. -/
theorem statusByte_eq (b0 : UInt8) (hsync : b0 &&& 0x08 ≠ 0) (hover : b0 &&& 0xC0 = 0) :
    statusByte (b0 &&& 0x01 != 0) (b0 &&& 0x02 != 0) (b0 &&& 0x04 != 0) (b0 &&& 0x10 != 0)
      (b0 &&& 0x20 != 0) = b0 := by
  have h : ∀ n : Fin 256, UInt8.ofNat n &&& 0x08 ≠ 0 → UInt8.ofNat n &&& 0xC0 = 0 →
      statusByte (UInt8.ofNat n &&& 0x01 != 0) (UInt8.ofNat n &&& 0x02 != 0)
        (UInt8.ofNat n &&& 0x04 != 0) (UInt8.ofNat n &&& 0x10 != 0)
        (UInt8.ofNat n &&& 0x20 != 0) = UInt8.ofNat n := by decide +kernel
  have hb := h ⟨b0.toNat, b0.toNat_lt⟩
  simp only [UInt8.ofNat_toNat] at hb
  exact hb hsync hover

/-! ### Packets -/

namespace MouseEvent

/-- Both movements fit in 9 bits. -/
structure InRange (e : MouseEvent) : Prop where
  dx_ge : -256 ≤ e.dx.toInt
  dx_le : e.dx.toInt ≤ 255
  dy_ge : -256 ≤ e.dy.toInt
  dy_le : e.dy.toInt ≤ 255

instance (e : MouseEvent) : Decidable e.InRange :=
  decidable_of_iff
    (-256 ≤ e.dx.toInt ∧ e.dx.toInt ≤ 255 ∧ -256 ≤ e.dy.toInt ∧ e.dy.toInt ≤ 255)
    ⟨fun h => ⟨h.1, h.2.1, h.2.2.1, h.2.2.2⟩, fun h => ⟨h.1, h.2, h.3, h.4⟩⟩

/-- The three bytes of an event. -/
def encode (e : MouseEvent) : Vector UInt8 3 :=
  #v[statusByte e.left e.right e.middle (decide (e.dx.toInt < 0)) (decide (e.dy.toInt < 0)),
    lowByte e.dx, lowByte e.dy]

end MouseEvent

/-- What the third byte makes of the packet: nothing when an overflow bit is set. -/
def decodePacket (bytes : Vector UInt8 3) : Option MouseEvent :=
  let b0 := bytes[0]
  if b0 &&& 0xC0 ≠ 0 then none
  else
    some {
      dx := movement b0 0x10 bytes[1]
      dy := movement b0 0x20 bytes[2]
      left := b0 &&& 0x01 != 0
      right := b0 &&& 0x02 != 0
      middle := b0 &&& 0x04 != 0 }

theorem decodePacket_mk (b0 b1 b2 : UInt8) : decodePacket #v[b0, b1, b2] =
    if b0 &&& 0xC0 ≠ 0 then none
    else some ⟨movement b0 0x10 b1, movement b0 0x20 b2, b0 &&& 0x01 != 0, b0 &&& 0x02 != 0,
      b0 &&& 0x04 != 0⟩ := rfl

/-- **An event is decoded from its encoding.** -/
theorem decodePacket_encode {e : MouseEvent} (he : e.InRange) : decodePacket e.encode = some e := by
  obtain ⟨dx, dy, left, right, middle⟩ := e
  obtain ⟨hl, hr, hm, hx, hy⟩ :=
    statusByte_bits left right middle (decide (dx.toInt < 0)) (decide (dy.toInt < 0))
  have hover :=
    statusByte_overflow left right middle (decide (dx.toInt < 0)) (decide (dy.toInt < 0))
  have hdx := movement_lowByte he.dx_ge he.dx_le
    (by simpa only [bne_iff_ne, decide_eq_true_iff, iff_eq_eq] using congrArg (· = true) hx)
  have hdy := movement_lowByte he.dy_ge he.dy_le
    (by simpa only [bne_iff_ne, decide_eq_true_iff, iff_eq_eq] using congrArg (· = true) hy)
  rw [MouseEvent.encode, decodePacket_mk, if_neg (not_not.2 hover)]
  simp only [hl, hr, hm, hdx, hdy]

/-- **What is decoded encodes to the bytes it was decoded from.** -/
theorem encode_of_decodePacket {b0 b1 b2 : UInt8} {e : MouseEvent} (hsync : b0 &&& 0x08 ≠ 0)
    (h : decodePacket #v[b0, b1, b2] = some e) : e.InRange ∧ e.encode = #v[b0, b1, b2] := by
  obtain ⟨hx, hx'⟩ := movement_range b0 0x10 b1
  obtain ⟨hy, hy'⟩ := movement_range b0 0x20 b2
  rw [decodePacket_mk] at h
  by_cases hover : b0 &&& 0xC0 = 0
  · rw [if_neg (not_not.2 hover)] at h
    cases h
    refine ⟨⟨hx, hx', hy, hy'⟩, ?_⟩
    simp only [MouseEvent.encode, lowByte_movement, movement_sign,
      statusByte_eq b0 hsync hover]
  · rw [if_pos hover] at h
    cases h

/-! ### The decoder -/

/-- `PACKET_STATE` (0, 1 or 2: the byte that is waited for) and `PACKET_BYTES`. -/
structure PacketDecoder where
  packetState : UInt8
  packetBytes : Vector UInt8 3
  deriving Repr, DecidableEq

namespace PacketDecoder

/-- The statics at boot. -/
def init : PacketDecoder := ⟨0, .replicate 3 0⟩

end PacketDecoder

open PacketDecoder

/-- `add_byte`, with the event it pushes. -/
def addByte (self : PacketDecoder) (byte : UInt8) : PacketDecoder × Option MouseEvent :=
  match self.packetState with
  | 0 =>
    -- bit 3 is always set in a first byte: without it, out of step
    if byte &&& 0x08 = 0 then (self, none)
    else (⟨1, self.packetBytes.set 0 byte⟩, none)
  | 1 => (⟨2, self.packetBytes.set 1 byte⟩, none)
  | 2 =>
    let bytes := self.packetBytes.set 2 byte
    (⟨0, bytes⟩, decodePacket bytes)
  | _ => ({ self with packetState := 0 }, none)

section

variable {d : PacketDecoder} {byte : UInt8}

theorem addByte_skip (hd : d.packetState = 0) (hbyte : byte &&& 0x08 = 0) :
    addByte d byte = (d, none) := by
  obtain ⟨state, bytes⟩ := d
  cases hd
  exact if_pos hbyte

theorem addByte_first (hd : d.packetState = 0) (hbyte : byte &&& 0x08 ≠ 0) :
    addByte d byte = (⟨1, d.packetBytes.set 0 byte⟩, none) := by
  obtain ⟨state, bytes⟩ := d
  cases hd
  exact if_neg hbyte

theorem addByte_second (hd : d.packetState = 1) :
    addByte d byte = (⟨2, d.packetBytes.set 1 byte⟩, none) := by
  obtain ⟨state, bytes⟩ := d
  cases hd
  rfl

theorem addByte_third (hd : d.packetState = 2) :
    addByte d byte = (⟨0, d.packetBytes.set 2 byte⟩, decodePacket (d.packetBytes.set 2 byte)) := by
  obtain ⟨state, bytes⟩ := d
  cases hd
  rfl

end

end ROs
