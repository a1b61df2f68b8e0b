import ROs.Mouse.Stream
import ROs.Queue.Ring
import ROs.Shell.Line

/-!
# Interrupts and input

The interrupt handlers of `interrupts.rs` count the ticks of the timer, put scancodes into the queue
of `keyboard.rs`, and feed the packet decoder of `mouse.rs`, which puts events into a queue of its own
(`Input.handle`).  A handler runs to its end, so its push is all the accesses of a producer at once
(`Spsc.pushCall`), possibly between two accesses of the consumer that it has interrupted.

Scancodes become keys in a package (`KeyDecoder`), of which nothing is assumed.

* `Input.Recorded.exists_handle` : **an interrupt is handled without a panic**, and takes nothing out
  of the queues.
* `Input.Recorded.conserved` : nothing is lost or reordered in the queues but what a full queue drops.
-/

namespace ROs

/-! ### A push of an interrupt handler -/

namespace Spsc

variable {α : Type*} {s s' : Spsc α} {e : Fifo.Event α} {val : α}

/-- A new queue is empty. -/
theorem stored_init (data : Vector α BUF_SIZE) : (init data).stored = [] := by
  simp [stored, RingBuffer.stored, RingBuffer.count, init, Circular.window]

/-- All the accesses of `push(val)`. -/
def pushCall (val : α) (s : Spsc α) : Option (Fifo.Event α × Spsc α) := do
  let (_, s) ← s.pushStep val
  let (e, s) ← s.pushStep val
  match e with
  | .dropped _ => some (e, s)
  | _ => do
    let (_, s) ← s.pushStep val
    s.pushStep val

/-- A step of the bounded queue that nobody sees changes nothing. -/
theorem stored_of_silent {cap : ℕ} {q q' : List α} (h : Fifo.Step cap q .silent q') : q' = q := by
  cases h
  rfl

theorem pushStep_full {ring : RingBuffer α} (h : (ring.head + 1) % BUF_SIZE = ring.tail) (val v : α)
    (pop : PopPc α) : pushStep v ⟨ring, .loadedHead val ring.head, pop⟩ =
      some (.dropped val, ⟨ring, .idle, pop⟩) := if_pos h

theorem pushStep_room {ring : RingBuffer α} (h : (ring.head + 1) % BUF_SIZE ≠ ring.tail) (val v : α)
    (pop : PopPc α) : pushStep v ⟨ring, .loadedHead val ring.head, pop⟩ =
      some (.silent, ⟨ring, .checked val ring.head ((ring.head + 1) % BUF_SIZE), pop⟩) := if_neg h

theorem pushStep_checked {ring : RingBuffer α} (h : ring.head < BUF_SIZE) (val v : α) (next : ℕ)
    (pop : PopPc α) : pushStep v ⟨ring, .checked val ring.head next, pop⟩ =
      some (.silent, ⟨ring.setHead val h, .written val ring.head next, pop⟩) := dif_pos h

/-- **A push of an interrupt handler** is a run of the producer: it stores the value, or drops it
because the queue is full. -/
theorem exists_pushCall (hi : s.Inv) (hidle : s.push = .idle) (val : α) :
    ∃ e s', s.pushCall val = some (e, s') ∧ (e = .accepted val ∨ e = .dropped val) ∧
      Fifo.Step (BUF_SIZE - 1) s.stored e s'.stored ∧ s'.Inv ∧ s'.push = .idle ∧ s'.pop = s.pop := by
  obtain ⟨ring, push, pop⟩ := s
  obtain rfl : push = .idle := hidle
  have hload : pushStep val ⟨ring, .idle, pop⟩ =
      some (.silent, ⟨ring, .loadedHead val ring.head, pop⟩) := rfl
  have hi₁ := (pushStep_refines hi hload).2
  by_cases hfull : (ring.head + 1) % BUF_SIZE = ring.tail
  · have hdrop := pushStep_full hfull val val pop
    obtain ⟨hstep, hi₂⟩ := pushStep_refines hi₁ hdrop
    refine ⟨_, _, ?_, .inr rfl, hstep, hi₂, rfl, rfl⟩
    simp only [pushCall, hload, hdrop, Option.bind_eq_bind, Option.bind_some]
  · have hroom := pushStep_room hfull val val pop
    have hi₂ := (pushStep_refines hi₁ hroom).2
    have hwrite := pushStep_checked hi.inRange.head_lt val val
      ((ring.head + 1) % BUF_SIZE) pop
    obtain ⟨hstep₃, hi₃⟩ := pushStep_refines hi₂ hwrite
    obtain ⟨hstep, hi₄⟩ := pushStep_refines hi₃ (v := val) rfl
    refine ⟨.accepted val, _, ?_, .inl rfl, ?_, hi₄, rfl, rfl⟩
    · simp only [pushCall, hload, hroom, hwrite, Option.bind_eq_bind, Option.bind_some]
      rfl
    · rw [← stored_of_silent hstep₃]
      exact hstep

/-- **An access of the consumer** succeeds; a pop ends by returning a value, or nothing. -/
theorem exists_popStep (hi : s.Inv) : ∃ e s', s.popStep = some (e, s') ∧
    (e = .silent ∨ (∃ v, e = .popped v) ∨ e = .empty) ∧
      Fifo.Step (BUF_SIZE - 1) s.stored e s'.stored ∧ s'.Inv ∧ s'.push = s.push := by
  obtain ⟨ring, push, pop⟩ := s
  cases pop with
  | idle =>
    obtain ⟨hstep, hi'⟩ := popStep_refines hi rfl
    exact ⟨_, _, rfl, .inl rfl, hstep, hi', rfl⟩
  | loadedTail tail =>
    by_cases hempty : tail = ring.head
    · have hst : popStep ⟨ring, push, .loadedTail tail⟩ = some (.empty, ⟨ring, push, .idle⟩) :=
        if_pos hempty
      obtain ⟨hstep, hi'⟩ := popStep_refines hi hst
      exact ⟨_, _, hst, .inr (.inr rfl), hstep, hi', rfl⟩
    · have hst : popStep ⟨ring, push, .loadedTail tail⟩ =
          some (.silent, ⟨ring, push, .checked tail⟩) := if_neg hempty
      obtain ⟨hstep, hi'⟩ := popStep_refines hi hst
      exact ⟨_, _, hst, .inl rfl, hstep, hi', rfl⟩
  | checked tail =>
    have hlt : tail < BUF_SIZE := by
      have hok : tail = ring.tail ∧ 0 < ring.count := hi.popOk
      rw [hok.1]
      exact hi.inRange.tail_lt
    have hst : popStep ⟨ring, push, .checked tail⟩ =
        some (.silent, ⟨ring, push, .read tail ring.data[tail]⟩) := dif_pos hlt
    obtain ⟨hstep, hi'⟩ := popStep_refines hi hst
    exact ⟨_, _, hst, .inl rfl, hstep, hi', rfl⟩
  | read tail val =>
    obtain ⟨hstep, hi'⟩ := popStep_refines hi rfl
    exact ⟨_, _, rfl, .inr (.inl ⟨val, rfl⟩), hstep, hi', rfl⟩

end Spsc

/-! ### What the handlers leave -/

/-- The statics that the interrupt handlers write. -/
structure Input where
  /-- `TICK_COUNT`. -/
  tickCount : UInt64
  /-- `SCANCODE_QUEUE`. -/
  scancodes : Spsc UInt8
  /-- `PACKET_STATE` and `PACKET_BYTES`. -/
  packets : PacketDecoder
  /-- `MOUSE_QUEUE`. -/
  mouseEvents : Spsc MouseEvent

/-- The hardware interrupts, with the byte that the handler reads from the port. -/
inductive Interrupt where
  | timer
  | keyboard (scancode : UInt8)
  | mouse (byte : UInt8)
  deriving Repr, DecidableEq

/-- What an interrupt does to the queues. -/
inductive Handled where
  | timer
  | keyboard (e : Fifo.Event UInt8)
  | mouse (byte : UInt8) (e : Fifo.Event MouseEvent)
  deriving Repr, DecidableEq

namespace Input

/-- The statics at boot. -/
def init : Input :=
  ⟨0, .init (.replicate _ 0), .init, .init (.replicate _ ⟨0, 0, false, false, false⟩)⟩

/-- `timer_handler`, `keyboard_handler` with `add_scancode`, and `mouse_handler` with `add_byte`. -/
def handle (self : Input) : Interrupt → Option (Handled × Input)
  | .timer => some (.timer, { self with tickCount := self.tickCount + 1 })
  | .keyboard scancode => do
    let (e, scancodes) ← self.scancodes.pushCall scancode
    some (.keyboard e, { self with scancodes })
  | .mouse byte =>
    match addByte self.packets byte with
    | (packets, none) => some (.mouse byte .silent, { self with packets })
    | (packets, some event) => do
      let (e, mouseEvents) ← self.mouseEvents.pushCall event
      some (.mouse byte e, { self with packets, mouseEvents })

/-- No handler is at work, and the queues are in order. -/
structure Ok (input : Input) : Prop where
  scancodes : input.scancodes.Inv
  mouseEvents : input.mouseEvents.Inv
  scancodesIdle : input.scancodes.push = .idle
  mouseEventsIdle : input.mouseEvents.push = .idle

theorem ok_init : init.Ok := ⟨Spsc.inv_init _, Spsc.inv_init _, rfl, rfl⟩

/-! ### Histories -/

variable {self : Input} {ks : List (Fifo.Event UInt8)} {ms : List (Fifo.Event MouseEvent)}
  {bytes : List UInt8}

/-- The input after a history of the two queues, and the bytes that the mouse has sent. -/
structure Recorded (ks : List (Fifo.Event UInt8)) (ms : List (Fifo.Event MouseEvent))
    (bytes : List UInt8) (input : Input) : Prop where
  ok : input.Ok
  scancodes : Trace (Fifo.Step (BUF_SIZE - 1)) [] ks input.scancodes.stored
  mouseEvents : Trace (Fifo.Step (BUF_SIZE - 1)) [] ms input.mouseEvents.stored
  packets_eq : input.packets = (feed addByte .init bytes).1
  /-- The mouse events put in are those that the bytes decode to. -/
  offered_eq : Fifo.offered ms = (pushes .init bytes).reduceOption

theorem recorded_init : Recorded [] [] [] init := by
  refine ⟨ok_init, ?_, ?_, rfl, rfl⟩
  · rw [show init.scancodes.stored = [] from Spsc.stored_init _]
    exact .nil _
  · rw [show init.mouseEvents.stored = [] from Spsc.stored_init _]
    exact .nil _

/-- A step that leaves the packet decoder alone, and puts in no mouse event. -/
theorem Recorded.queues (h : Recorded ks ms bytes self) (self' : Input) (hok : self'.Ok)
    {k : Fifo.Event UInt8} {m : Fifo.Event MouseEvent}
    (hk : Fifo.Step (BUF_SIZE - 1) self.scancodes.stored k self'.scancodes.stored)
    (hm : Fifo.Step (BUF_SIZE - 1) self.mouseEvents.stored m self'.mouseEvents.stored)
    (hpackets : self'.packets = self.packets) (hoffered : Fifo.offered [m] = []) :
    Recorded (ks ++ [k]) (ms ++ [m]) bytes self' := by
  refine ⟨hok, h.scancodes.append (.single hk), h.mouseEvents.append (.single hm),
    hpackets.trans h.packets_eq, ?_⟩
  rw [Fifo.offered_concat, hoffered, List.append_nil]
  exact h.offered_eq

/-- A byte from the mouse. -/
theorem Recorded.byte (h : Recorded ks ms bytes self) (self' : Input) (hok : self'.Ok) (byte : UInt8)
    {m : Fifo.Event MouseEvent} (hscancodes : self'.scancodes = self.scancodes)
    (hm : Fifo.Step (BUF_SIZE - 1) self.mouseEvents.stored m self'.mouseEvents.stored)
    (hpackets : self'.packets = (addByte self.packets byte).1)
    (hoffered : Fifo.offered [m] = (addByte self.packets byte).2.toList) :
    Recorded (ks ++ [.silent]) (ms ++ [m]) (bytes ++ [byte]) self' := by
  refine ⟨hok, h.scancodes.append (.single (hscancodes ▸ .silent _)),
    h.mouseEvents.append (.single hm), ?_, ?_⟩
  · rw [feed_append, ← h.packets_eq, hpackets]
    rfl
  · have hpushes : pushes .init (bytes ++ [byte]) =
        pushes .init bytes ++ [(addByte self.packets byte).2] := by
      rw [pushes, feed_append, ← h.packets_eq]
      rfl
    rw [Fifo.offered_concat, h.offered_eq, hoffered, hpushes, List.reduceOption_append]
    rfl

end Input

/-- The accesses of the scancode queue. -/
def Handled.scancodes : Handled → Fifo.Event UInt8
  | .keyboard e => e
  | _ => .silent

/-- The accesses of the queue of mouse events. -/
def Handled.mouseEvents : Handled → Fifo.Event MouseEvent
  | .mouse _ e => e
  | _ => .silent

/-- The bytes that the mouse has sent. -/
def Handled.bytes : Handled → List UInt8
  | .mouse byte _ => [byte]
  | _ => []

/-- The ticks of the timer. -/
def Handled.ticks : Handled → ℕ
  | .timer => 1
  | _ => 0

namespace Input

variable {self : Input} {ks : List (Fifo.Event UInt8)} {ms : List (Fifo.Event MouseEvent)}
  {bytes : List UInt8}

/-- **An interrupt is handled** without a panic, whatever the consumers of the queues are doing, and
takes nothing out of them. -/
theorem Recorded.exists_handle (h : Recorded ks ms bytes self) (i : Interrupt) :
    ∃ e self', self.handle i = some (e, self') ∧
      Recorded (ks ++ [e.scancodes]) (ms ++ [e.mouseEvents]) (bytes ++ e.bytes) self' ∧
      self'.tickCount = self.tickCount + UInt64.ofNat e.ticks ∧
      Fifo.popped [e.scancodes] = [] ∧ Fifo.popped [e.mouseEvents] = [] := by
  obtain ⟨hscancodes, hmouseEvents, hidle, hidle'⟩ := h.ok
  cases i with
  | timer =>
    refine ⟨_, _, rfl, ?_, rfl, rfl, rfl⟩
    rw [show Handled.timer.bytes = [] from rfl, List.append_nil]
    exact h.queues { self with tickCount := self.tickCount + 1 }
      ⟨hscancodes, hmouseEvents, hidle, hidle'⟩ (.silent _) (.silent _) rfl rfl
  | keyboard scancode =>
    obtain ⟨e, q, hpush, hevent, hstep, hi, hpushIdle, -⟩ :=
      Spsc.exists_pushCall hscancodes hidle scancode
    refine ⟨.keyboard e, { self with scancodes := q }, ?_, ?_, (UInt64.add_zero _).symm, ?_, rfl⟩
    · rw [handle, hpush]
      rfl
    · rw [show (Handled.keyboard e).bytes = [] from rfl, List.append_nil]
      exact h.queues { self with scancodes := q } ⟨hi, hmouseEvents, hpushIdle, hidle'⟩ hstep
        (.silent _) rfl rfl
    · rcases hevent with rfl | rfl <;> rfl
  | mouse byte =>
    cases hadd : addByte self.packets byte with
    | mk packets event =>
      cases event with
      | none =>
        refine ⟨.mouse byte .silent, { self with packets }, ?_, ?_, (UInt64.add_zero _).symm, rfl,
          rfl⟩
        · rw [handle, hadd]
        · exact h.byte { self with packets } ⟨hscancodes, hmouseEvents, hidle, hidle'⟩
            byte rfl (.silent _) (by rw [hadd]) (by rw [hadd]; rfl)
      | some event =>
        obtain ⟨e, q, hpush, hevent, hstep, hi, hpushIdle, -⟩ :=
          Spsc.exists_pushCall hmouseEvents hidle' event
        refine ⟨.mouse byte e, { self with packets, mouseEvents := q }, ?_, ?_,
          (UInt64.add_zero _).symm, rfl, ?_⟩
        · rw [handle, hadd]
          simp only [hpush, Option.bind_eq_bind, Option.bind_some]
        · refine h.byte { self with packets, mouseEvents := q } ⟨hscancodes, hi, hidle, hpushIdle⟩
            byte rfl hstep (by rw [hadd]) ?_
          rw [hadd]
          rcases hevent with rfl | rfl <;> rfl
        · rcases hevent with rfl | rfl <;> rfl

/-- **An access of the shell to the scancode queue.** -/
theorem Recorded.exists_popScancode (h : Recorded ks ms bytes self) :
    ∃ e q, self.scancodes.popStep = some (e, q) ∧
      (e = .silent ∨ (∃ v, e = .popped v) ∨ e = .empty) ∧
      Recorded (ks ++ [e]) ms bytes { self with scancodes := q } := by
  obtain ⟨hscancodes, hmouseEvents, hidle, hidle'⟩ := h.ok
  obtain ⟨e, q, hpop, hevent, hstep, hi, hpush⟩ := Spsc.exists_popStep hscancodes
  refine ⟨e, q, hpop, hevent, ⟨hi, hmouseEvents, hpush.trans hidle, hidle'⟩,
    h.scancodes.append (.single hstep), h.mouseEvents, h.packets_eq, h.offered_eq⟩

/-- **An access of the idle loop to the queue of mouse events.** -/
theorem Recorded.exists_popMouse (h : Recorded ks ms bytes self) :
    ∃ e q, self.mouseEvents.popStep = some (e, q) ∧
      (e = .silent ∨ (∃ v, e = .popped v) ∨ e = .empty) ∧
      Recorded ks (ms ++ [e]) bytes { self with mouseEvents := q } := by
  obtain ⟨hscancodes, hmouseEvents, hidle, hidle'⟩ := h.ok
  obtain ⟨e, q, hpop, hevent, hstep, hi, hpush⟩ := Spsc.exists_popStep hmouseEvents
  refine ⟨e, q, hpop, hevent, ⟨hscancodes, hi, hidle, hpush.trans hidle'⟩, h.scancodes,
    h.mouseEvents.append (.single hstep), h.packets_eq, ?_⟩
  have hnone : Fifo.offered [e] = [] := by
    rcases hevent with rfl | ⟨v, rfl⟩ | rfl <;> rfl
  rw [Fifo.offered_concat, hnone, List.append_nil]
  exact h.offered_eq

/-- **What has been put in and taken out**: in both queues the values taken out and those left are the
ones accepted, in order. -/
theorem Recorded.conserved (h : Recorded ks ms bytes self) :
    Fifo.popped ks ++ self.scancodes.stored = Fifo.accepted ks ∧
      Fifo.popped ms ++ self.mouseEvents.stored = Fifo.accepted ms :=
  ⟨Fifo.popped_append h.scancodes, Fifo.popped_append h.mouseEvents⟩

end Input

/-! ### Keys -/

/-- The decoder of the package `pc_keyboard`, `Keyboard<Us104Key, ScancodeSet1>`. -/
structure KeyDecoder where
  Keyboard : Type
  KeyEvent : Type
  new : Keyboard
  addByte : Keyboard → UInt8 → Keyboard × Except Unit (Option KeyEvent)
  processKeyevent : Keyboard → KeyEvent → Keyboard × Option DecodedKey

namespace KeyDecoder

/-- What the loop of `try_read_key` makes of a scancode. -/
def receive (D : KeyDecoder) (kb : D.Keyboard) (scancode : UInt8) : D.Keyboard × Option DecodedKey :=
  match D.addByte kb scancode with
  | (kb, .ok (some event)) => D.processKeyevent kb event
  | (kb, _) => (kb, none)

/-- The keys that scancodes decode to, from the first one on. -/
def keys (D : KeyDecoder) (scancodes : List UInt8) : List DecodedKey :=
  (feed D.receive D.new scancodes).2.reduceOption

/-- A decoder of two keys, `a` and Return. -/
def sample : KeyDecoder where
  Keyboard := Unit
  KeyEvent := UInt8
  new := ()
  addByte _ scancode :=
    ((), if scancode ∈ [0x1e, 0x9e, 0x1c, 0x9c] then .ok (some scancode) else .error ())
  processKeyevent _ event :=
    ((), if event = 0x1e then some (.unicode 'a')
      else if event = 0x1c then some (.unicode '\n') else none)

end KeyDecoder

end ROs
