import Mathlib.Data.List.ReduceOption
import ROs.Mouse.Packet

/-!
# Streams of mouse bytes

Whole streams fed to `add_byte`, one call for each byte (`pushes`).

* `addByte_stream`: events and overflow packets, with bytes whose bit 3 is clear between them,
  are decoded to exactly the events; conversely every event pushed is the encoding of the three
  bytes it was decoded from, and no byte is decoded twice.
* `addByte_resync`: a decoder that is out of step is in step again after one packet whose
  movement bytes have bit 3 clear.

Both read the stream in blocks.  In state 0 a skipped byte and a packet are blocks of their own
(`feed_skip`, `feed_packet`), and this is all the decoder does on any stream (`framed`).
-/

namespace ROs

open PacketDecoder

/-- What each byte of a stream pushes. -/
def pushes (d : PacketDecoder) (bytes : List UInt8) : List (Option MouseEvent) :=
  (feed addByte d bytes).2

variable {d : PacketDecoder}

/-! ### Blocks -/

theorem feed_skip (hd : d.packetState = 0) {byte : UInt8} (hbyte : byte &&& 0x08 = 0)
    (rest : List UInt8) :
    feed addByte d (byte :: rest) =
      ((feed addByte d rest).1, none :: (feed addByte d rest).2) := by
  rw [feed_cons, addByte_skip hd hbyte]

/-- Three bytes, the first with bit 3 set, are a packet. -/
theorem feed_packet (hd : d.packetState = 0) {b0 b1 b2 : UInt8} (hsync : b0 &&& 0x08 ≠ 0)
    (rest : List UInt8) :
    feed addByte d (b0 :: b1 :: b2 :: rest) =
      ((feed addByte ⟨0, #v[b0, b1, b2]⟩ rest).1,
        none :: none :: decodePacket #v[b0, b1, b2] ::
          (feed addByte ⟨0, #v[b0, b1, b2]⟩ rest).2) := by
  have hset : ((d.packetBytes.set 0 b0).set 1 b1).set 2 b2 = #v[b0, b1, b2] := by
    refine Vector.ext fun i hi => ?_
    rcases (by omega : i = 0 ∨ i = 1 ∨ i = 2) with rfl | rfl | rfl <;> simp
  rw [feed_cons, addByte_first hd hsync, feed_cons, addByte_second rfl, feed_cons,
    addByte_third rfl]
  simp only [hset]

/-- Only the third byte of a packet pushes. -/
theorem addByte_quiet (hd : d.packetState ≠ 2) (byte : UInt8) : (addByte d byte).2 = none := by
  rw [addByte]
  split
  · split <;> rfl
  · rfl
  · contradiction
  · rfl

/-- What a decoder in state 0 makes of a stream, packet by packet. -/
def framed : List UInt8 → List (Option MouseEvent)
  | b0 :: b1 :: b2 :: rest =>
    if b0 &&& 0x08 = 0 then none :: framed (b1 :: b2 :: rest)
    else none :: none :: decodePacket #v[b0, b1, b2] :: framed rest
  -- fewer than three bytes are no packet
  | [_, _] => [none, none]
  | [_] => [none]
  | [] => []

/-- The decoder reads every stream packet by packet. -/
theorem pushes_eq_framed (hd : d.packetState = 0) (bytes : List UInt8) :
    pushes d bytes = framed bytes := by
  fun_induction framed bytes generalizing d with
  | case1 b0 b1 b2 rest hbyte ih =>
    rw [pushes, feed_skip hd hbyte]
    exact congrArg _ (ih hd)
  | case2 b0 b1 b2 rest hsync ih =>
    rw [pushes, feed_packet hd hsync]
    exact congrArg (none :: none :: _ :: ·) (ih rfl)
  | case3 b0 b1 =>
    have hzero : (0 : UInt8) ≠ 2 := by decide
    have hone : (1 : UInt8) ≠ 2 := by decide
    by_cases hb : b0 &&& 0x08 = 0
    · rw [pushes, feed_skip hd hb, feed_cons, addByte_quiet (by rwa [hd])]
      rfl
    · rw [pushes, feed_cons, addByte_first hd hb, feed_cons, addByte_quiet hone]
      rfl
  | case4 b0 =>
    rw [pushes, feed_cons, addByte_quiet (by rw [hd]; decide)]
    rfl
  | case5 => rfl

/-! ### Encoding and decoding -/

/-- A piece of the traffic: a byte whose bit 3 is clear, an encoded event, or a packet with an
overflow bit set. -/
inductive Piece where
  | skipped (byte : UInt8) (clear : byte &&& 0x08 = 0)
  | event (e : MouseEvent) (range : e.InRange)
  | overflow (b0 b1 b2 : UInt8) (sync : b0 &&& 0x08 ≠ 0) (overflow : b0 &&& 0xC0 ≠ 0)

namespace Piece

/-- The bytes of a piece. -/
def bytes : Piece → List UInt8
  | skipped byte _ => [byte]
  | event e _ => e.encode.toList
  | overflow b0 b1 b2 _ _ => [b0, b1, b2]

/-- The event of a piece that has one. -/
def event? : Piece → Option MouseEvent
  | event e _ => some e
  | _ => none

/-- What the bytes of a piece push. -/
def pushed : Piece → List (Option MouseEvent)
  | skipped _ _ => [none]
  | event e _ => [none, none, some e]
  | overflow _ _ _ _ _ => [none, none, none]

/-- A decoder in state 0 reads one piece. -/
theorem feed_bytes (d : PacketDecoder) (p : Piece) (hd : d.packetState = 0) :
    (feed addByte d p.bytes).1.packetState = 0 ∧ (feed addByte d p.bytes).2 = p.pushed := by
  cases p with
  | skipped byte clear =>
    rw [bytes, feed_skip hd clear]
    exact ⟨hd, rfl⟩
  | event e range =>
    have hdec := decodePacket_encode range
    have hsync := statusByte_sync e.left e.right e.middle (decide (e.dx.toInt < 0))
      (decide (e.dy.toInt < 0))
    rw [bytes, MouseEvent.encode]
    simp only [Vector.toList_mk]
    rw [feed_packet hd hsync]
    exact ⟨rfl, by rw [← MouseEvent.encode, hdec]; rfl⟩
  | overflow b0 b1 b2 sync hover =>
    rw [bytes, feed_packet hd sync, decodePacket_mk, if_pos hover]
    exact ⟨rfl, rfl⟩

theorem reduceOption_pushed (ps : List Piece) :
    (ps.flatMap pushed).reduceOption = ps.filterMap event? := by
  induction ps with
  | nil => rfl
  | cons p ps ih =>
    rw [List.flatMap_cons, List.reduceOption_append, ih]
    cases p <;> rfl

end Piece

/-- **A stream of packets is decoded to its events.** -/
theorem pushes_pieces (hd : d.packetState = 0) (ps : List Piece) :
    (pushes d (ps.flatMap Piece.bytes)).reduceOption = ps.filterMap Piece.event? ∧
      (feed addByte d (ps.flatMap Piece.bytes)).1.packetState = 0 := by
  obtain ⟨hhome, hout⟩ := feed_flatMap Piece.feed_bytes hd ps
  exact ⟨by rw [pushes, hout, Piece.reduceOption_pushed], hhome⟩

/-- `e` was decoded from the three bytes that end at position `i`. -/
def DecodedAt (bytes : List UInt8) (i : ℕ) (e : MouseEvent) : Prop :=
  ∃ pre b0 b1 b2 post, bytes = pre ++ b0 :: b1 :: b2 :: post ∧ i = pre.length + 2 ∧
    decodePacket #v[b0, b1, b2] = some e ∧ e.InRange ∧ e.encode = #v[b0, b1, b2]

theorem DecodedAt.append {bytes : List UInt8} {i : ℕ} {e : MouseEvent}
    (h : DecodedAt bytes i e) (front : List UInt8) :
    DecodedAt (front ++ bytes) (front.length + i) e := by
  obtain ⟨pre, b0, b1, b2, post, rfl, rfl, hrest⟩ := h
  refine ⟨front ++ pre, b0, b1, b2, post, by rw [List.append_assoc], ?_, hrest⟩
  rw [List.length_append, Nat.add_assoc]

/-- Every event a stream pushes is the encoding of the three bytes it was decoded from. -/
theorem decodedAt_of_framed {bytes : List UInt8} {i : ℕ} {e : MouseEvent}
    (h : (framed bytes)[i]? = some (some e)) : DecodedAt bytes i e := by
  fun_induction framed bytes generalizing i with
  | case1 b0 b1 b2 rest hbyte ih =>
    cases i with
    | zero => simp at h
    | succ i =>
      have := (ih h).append [b0]
      rwa [Nat.add_comm] at this
  | case2 b0 b1 b2 rest hsync ih =>
    rcases i with _ | _ | _ | i
    · simp at h
    · simp at h
    · have hdec : decodePacket #v[b0, b1, b2] = some e := by simpa using h
      obtain ⟨hrange, henc⟩ := encode_of_decodePacket hsync hdec
      exact ⟨[], b0, b1, b2, rest, rfl, rfl, hdec, hrange, henc⟩
    · have := (ih h).append [b0, b1, b2]
      rwa [Nat.add_comm] at this
  | case3 => rcases i with _ | _ | i <;> simp at h
  | case4 => rcases i with _ | i <;> simp at h
  | case5 => simp at h

/-- The first event is no earlier than the third byte. -/
theorem DecodedAt.two_le {bytes : List UInt8} {i : ℕ} {e : MouseEvent}
    (h : DecodedAt bytes i e) : 2 ≤ i := by
  obtain ⟨pre, _, _, _, _, _, rfl, _⟩ := h
  omega

/-- Two events of a stream are at least three bytes apart. -/
theorem apart_of_framed {bytes : List UInt8} {i j : ℕ} {e e' : MouseEvent}
    (hi : (framed bytes)[i]? = some (some e)) (hj : (framed bytes)[j]? = some (some e'))
    (hij : i < j) : i + 3 ≤ j := by
  fun_induction framed bytes generalizing i j with
  | case1 b0 b1 b2 rest hbyte ih =>
    rcases i with _ | i
    · simp at hi
    · obtain ⟨j, rfl⟩ : ∃ k, j = k + 1 := ⟨j - 1, by omega⟩
      have := ih hi hj (by omega)
      omega
  | case2 b0 b1 b2 rest hsync ih =>
    rcases i with _ | _ | i
    · simp at hi
    · simp at hi
    · obtain ⟨j, rfl⟩ : ∃ k, j = k + 3 := ⟨j - 3, by omega⟩
      rcases i with _ | i
      · -- the event of this packet: the next one is at least a packet away
        have := (decodedAt_of_framed (i := j) hj).two_le
        omega
      · have := ih (i := i) (j := j) hi hj (by omega)
        omega
  | case3 => rcases i with _ | _ | i <;> simp at hi
  | case4 => rcases i with _ | i <;> simp at hi
  | case5 => simp at hi

/-- **The decoder inverts the encoding over whole streams.**  Traffic is decoded to exactly its
events and leaves the decoder in state 0; and the events any stream pushes are the encodings of
the disjoint triples of bytes they were decoded from. -/
theorem addByte_stream (hd : d.packetState = 0) :
    (∀ ps : List Piece,
      (pushes d (ps.flatMap Piece.bytes)).reduceOption = ps.filterMap Piece.event? ∧
        (feed addByte d (ps.flatMap Piece.bytes)).1.packetState = 0) ∧
    ∀ bytes : List UInt8,
      (∀ i e, (pushes d bytes)[i]? = some (some e) → DecodedAt bytes i e) ∧
      ∀ i j e e', (pushes d bytes)[i]? = some (some e) → (pushes d bytes)[j]? = some (some e') →
        i < j → i + 3 ≤ j := by
  refine ⟨pushes_pieces hd, fun bytes => ?_⟩
  rw [pushes_eq_framed hd]
  exact ⟨fun _ _ h => decodedAt_of_framed h, fun _ _ _ _ hi hj => apart_of_framed hi hj⟩

theorem addByte_stream_traffic :
    (pushes init ([.skipped 0x00 (by decide), .event ⟨-1, 255, true, false, false⟩ (by decide),
      .overflow 0x48 0xff 0xff (by decide) (by decide), .skipped 0x07 (by decide),
      .event ⟨-256, 0, false, true, true⟩ (by decide)].flatMap Piece.bytes)).reduceOption =
      [⟨-1, 255, true, false, false⟩, ⟨-256, 0, false, true, true⟩] :=
  ((addByte_stream (d := init) rfl).1 _).1

/-! ### Getting back in step -/

/-- A packet without overflow whose movement bytes have bit 3 clear. -/
structure CleanPacket where
  b0 : UInt8
  b1 : UInt8
  b2 : UInt8
  sync : b0 &&& 0x08 ≠ 0
  noOverflow : b0 &&& 0xC0 = 0
  clear₁ : b1 &&& 0x08 = 0
  clear₂ : b2 &&& 0x08 = 0

namespace CleanPacket

/-- The bytes of the packet. -/
def bytes (p : CleanPacket) : List UInt8 := [p.b0, p.b1, p.b2]

/-- The event of the packet. -/
def event (p : CleanPacket) : MouseEvent where
  dx := movement p.b0 0x10 p.b1
  dy := movement p.b0 0x20 p.b2
  left := p.b0 &&& 0x01 != 0
  right := p.b0 &&& 0x02 != 0
  middle := p.b0 &&& 0x04 != 0

theorem decodePacket_bytes (p : CleanPacket) :
    decodePacket #v[p.b0, p.b1, p.b2] = some p.event := by
  rw [decodePacket_mk, if_neg (not_not.2 p.noOverflow)]
  rfl

/-- The packet is the encoding of its event. -/
theorem encode_event (p : CleanPacket) : p.event.InRange ∧ p.event.encode.toList = p.bytes := by
  obtain ⟨hrange, hencode⟩ := encode_of_decodePacket p.sync p.decodePacket_bytes
  exact ⟨hrange, congrArg Vector.toList hencode⟩

/-- What the packet pushes when the decoder is in step. -/
def pushed (p : CleanPacket) : List (Option MouseEvent) := [none, none, some p.event]

theorem feed_bytes (d : PacketDecoder) (p : CleanPacket) (hd : d.packetState = 0) :
    (feed addByte d p.bytes).1.packetState = 0 ∧ (feed addByte d p.bytes).2 = p.pushed := by
  rw [bytes, feed_packet hd p.sync, p.decodePacket_bytes]
  exact ⟨rfl, rfl⟩

/-- A decoder that waits for the second byte takes the first two bytes for the rest of a packet
and skips the third. -/
theorem feed_bytes_one (p : CleanPacket) (hd : d.packetState = 1) :
    (feed addByte d p.bytes).1.packetState = 0 ∧
      ∃ x, (feed addByte d p.bytes).2 = [none, x, none] := by
  rw [bytes, feed_cons, addByte_second hd, feed_cons, addByte_third rfl, feed_skip rfl p.clear₂]
  exact ⟨rfl, _, rfl⟩

/-- A decoder that waits for the third byte takes the first for it and skips the others. -/
theorem feed_bytes_two (p : CleanPacket) (hd : d.packetState = 2) :
    (feed addByte d p.bytes).1.packetState = 0 ∧
      ∃ x, (feed addByte d p.bytes).2 = [x, none, none] := by
  rw [bytes, feed_cons, addByte_third hd, feed_skip rfl p.clear₁, feed_skip rfl p.clear₂]
  exact ⟨rfl, _, rfl⟩

end CleanPacket

/-- **The decoder gets back in step.**  Whatever its state and its stale bytes, a decoder fed
clean packets decodes each of them but the first to its own event, the one that the packet is the
encoding of.  The first is decoded too if the decoder was in step; otherwise at most one event comes
in its place, before its last byte. -/
theorem addByte_resync
    (hd : d.packetState = 0 ∨ d.packetState = 1 ∨ d.packetState = 2)
    (p : CleanPacket) (ps : List CleanPacket) :
    ∃ first : List (Option MouseEvent),
      pushes d ((p :: ps).flatMap CleanPacket.bytes) =
        first ++ ps.flatMap (fun q => [none, none, some q.event]) ∧
      (∀ q ∈ p :: ps, q.event.InRange ∧ q.event.encode.toList = q.bytes) ∧
      (d.packetState = 0 → first = [none, none, some p.event]) ∧
      (d.packetState ≠ 0 →
        first.length = 3 ∧ first.reduceOption.length ≤ 1 ∧ first[2]? = some none) ∧
      (feed addByte d ((p :: ps).flatMap CleanPacket.bytes)).1.packetState = 0 := by
  -- the first packet, from each of the three states
  have hfirst : (feed addByte d p.bytes).1.packetState = 0 ∧
      (d.packetState = 0 → (feed addByte d p.bytes).2 = [none, none, some p.event]) ∧
      (d.packetState ≠ 0 → (feed addByte d p.bytes).2.length = 3 ∧
        (feed addByte d p.bytes).2.reduceOption.length ≤ 1 ∧
        (feed addByte d p.bytes).2[2]? = some none) := by
    rcases hd with hd | hd | hd
    · obtain ⟨hstate, hout⟩ := p.feed_bytes d hd
      exact ⟨hstate, fun _ => hout, fun hne => absurd hd hne⟩
    · obtain ⟨hstate, x, hout⟩ := p.feed_bytes_one hd
      refine ⟨hstate, fun hz => absurd (hz.symm.trans hd) (by decide), fun _ => ?_⟩
      rw [hout]
      cases x <;> simp
    · obtain ⟨hstate, x, hout⟩ := p.feed_bytes_two hd
      refine ⟨hstate, fun hz => absurd (hz.symm.trans hd) (by decide), fun _ => ?_⟩
      rw [hout]
      cases x <;> simp
  obtain ⟨hstate, hzero, hother⟩ := hfirst
  -- from then on the decoder is in step
  obtain ⟨hhome, hout⟩ := feed_flatMap CleanPacket.feed_bytes hstate ps
  refine ⟨(feed addByte d p.bytes).2, ?_, fun q _ => q.encode_event, hzero, hother, ?_⟩
  · rw [pushes, List.flatMap_cons, feed_append, hout]
    rfl
  · rw [List.flatMap_cons, feed_append]
    exact hhome

/-- The second packet moves the mouse to the left and down, with the left button pressed. -/
theorem addByte_resync_stale :
    let event : MouseEvent := ⟨-13, -124, true, false, false⟩
    ∃ first, pushes ⟨2, #v[0x08, 0xff, 0]⟩ [0x08, 1, 2, 0x39, 0xf3, 0x84] =
        first ++ [none, none, some event] ∧
      event.encode.toList = [0x39, 0xf3, 0x84] ∧ first.length = 3 ∧
      first.reduceOption.length ≤ 1 := by
  obtain ⟨first, hout, hencode, -, hfirst, -⟩ :=
    addByte_resync (d := ⟨2, #v[0x08, 0xff, 0]⟩) (.inr (.inr rfl))
      ⟨0x08, 1, 2, by decide, by decide, by decide, by decide⟩
      [⟨0x39, 0xf3, 0x84, by decide, by decide, by decide, by decide⟩]
  obtain ⟨hlen, hone, -⟩ := hfirst (by decide)
  exact ⟨first, hout, (hencode _ (List.mem_cons_of_mem _ List.mem_cons_self)).2, hlen, hone⟩

end ROs
