import ROs.Lib.Fifo

/-!
# The lock-free ring buffer

`keyboard.rs` and `mouse.rs` hold the same single-producer single-consumer ring buffer, once for
scancodes and once for mouse events.  `RingBuffer α` is both.

The producer runs `push`, the consumer runs `pop`, and their atomic loads, atomic stores and slot
accesses interleave.  `PushPc` and `PopPc` are the points of the two functions between these
accesses, with the local variables that are live there; `Spsc.pushStep` and `Spsc.popStep`
perform the next access of one side, and `Spsc.Step` lets either side go next.  The producer
starts a push of any value whenever it is idle, the consumer a pop.

`Spsc.Inv` relates both program counters, both stale copies and the slots.  Under it every step
is a step of the bounded queue `Fifo.Step (BUF_SIZE - 1)` on the values stored
(`Spsc.step_refines`), so everything said about runs is read off the queue.
-/

namespace ROs

/-- `BUF_SIZE`. -/
abbrev BUF_SIZE : ℕ := 128

/-- `RingBuffer`. -/
structure RingBuffer (α : Type*) where
  data : Vector α BUF_SIZE
  head : ℕ
  tail : ℕ

namespace RingBuffer

open Circular

variable {α : Type*}

/-- How many slots hold a value not yet popped. -/
def count (r : RingBuffer α) : ℕ := (r.head + BUF_SIZE - r.tail) % BUF_SIZE

/-- The value in a slot. -/
def slot (r : RingBuffer α) (i : Fin BUF_SIZE) : α := r.data[i]

/-- The values stored but not yet popped, oldest first. -/
def stored (r : RingBuffer α) : List α := window r.slot r.tail r.count

@[simp] theorem length_stored (r : RingBuffer α) : r.stored.length = r.count :=
  length_window _ _ _

/-- Both indices are in range. -/
structure InRange (r : RingBuffer α) : Prop where
  head_lt : r.head < BUF_SIZE
  tail_lt : r.tail < BUF_SIZE

variable {r : RingBuffer α}

theorem count_eq_zero_iff (hr : r.InRange) : r.count = 0 ↔ r.tail = r.head := by
  obtain ⟨h1, h2⟩ := hr
  simp only [count, BUF_SIZE] at h1 h2 ⊢
  omega

theorem count_eq_pred_iff (hr : r.InRange) :
    r.count = BUF_SIZE - 1 ↔ (r.head + 1) % BUF_SIZE = r.tail := by
  obtain ⟨h1, h2⟩ := hr
  simp only [count, BUF_SIZE] at h1 h2 ⊢
  omega

/-- The slot at `head` does not belong to `stored`. -/
theorem ofNat_ne_head (hr : r.InRange) {i : ℕ} (hlt : i < r.count) :
    Fin.ofNat BUF_SIZE (r.tail + i) ≠ Fin.ofNat BUF_SIZE r.head := by
  intro h
  have hv := congrArg Fin.val h
  obtain ⟨h1, h2⟩ := hr
  simp only [Fin.ofNat, count, BUF_SIZE] at hv hlt h1 h2
  omega

/-- `data[head] = val`. -/
def setHead (r : RingBuffer α) (val : α) (h : r.head < BUF_SIZE) : RingBuffer α :=
  { r with data := r.data.set r.head val h }

theorem slot_setHead (val : α) (h : r.head < BUF_SIZE) (i : Fin BUF_SIZE) :
    (r.setHead val h).slot i = if i = Fin.ofNat BUF_SIZE r.head then val else r.slot i := by
  have hv : (Fin.ofNat BUF_SIZE r.head).val = r.head := Nat.mod_eq_of_lt h
  simp only [setHead, slot, Fin.getElem_fin, Vector.getElem_set, Fin.ext_iff, hv, eq_comm]

/-- Writing the slot at `head` changes no stored value. -/
theorem stored_setHead (hr : r.InRange) (val : α) :
    (r.setHead val hr.head_lt).stored = r.stored :=
  window_congr fun _ hlt => (slot_setHead val hr.head_lt _).trans (if_neg (ofNat_ne_head hr hlt))

/-- `head.store((head + 1) % BUF_SIZE)`. -/
def publish (r : RingBuffer α) : RingBuffer α := { r with head := (r.head + 1) % BUF_SIZE }

/-- `tail.store((tail + 1) % BUF_SIZE)`. -/
def release (r : RingBuffer α) : RingBuffer α := { r with tail := (r.tail + 1) % BUF_SIZE }

theorem InRange.publish (hr : r.InRange) : r.publish.InRange :=
  ⟨Nat.mod_lt _ (by decide), hr.tail_lt⟩

theorem InRange.release (hr : r.InRange) : r.release.InRange :=
  ⟨hr.head_lt, Nat.mod_lt _ (by decide)⟩

theorem count_publish (hr : r.InRange) (hroom : r.count < BUF_SIZE - 1) :
    r.publish.count = r.count + 1 := by
  obtain ⟨h1, h2⟩ := hr
  simp only [count, RingBuffer.publish, BUF_SIZE] at hroom h1 h2 ⊢
  omega

theorem count_release (hr : r.InRange) (hpos : 0 < r.count) :
    r.release.count = r.count - 1 := by
  obtain ⟨h1, h2⟩ := hr
  simp only [count, RingBuffer.release, BUF_SIZE] at hpos h1 h2 ⊢
  omega

/-- Publishing appends the value in the slot at `head`. -/
theorem stored_publish (hr : r.InRange) (hroom : r.count < BUF_SIZE - 1) :
    r.publish.stored = r.stored ++ [r.slot (Fin.ofNat _ r.head)] := by
  have hslot : Fin.ofNat BUF_SIZE (r.tail + r.count) = Fin.ofNat BUF_SIZE r.head := by
    obtain ⟨h1, h2⟩ := hr
    refine Fin.ext ?_
    simp only [Fin.ofNat, count, BUF_SIZE] at h1 h2 ⊢
    omega
  rw [stored, count_publish hr hroom, window_succ]
  exact congrArg (fun i => r.stored ++ [r.slot i]) hslot

/-- Releasing takes the oldest value. -/
theorem stored_release (hr : r.InRange) (hpos : 0 < r.count) :
    r.stored = r.slot (Fin.ofNat _ r.tail) :: r.release.stored := by
  obtain ⟨k, hk⟩ : ∃ k, r.count = k + 1 := ⟨r.count - 1, by omega⟩
  have hrel : r.release.count = k := by rw [count_release hr hpos, hk, Nat.add_sub_cancel]
  rw [stored, hk, window_cons, stored, hrel]
  rfl

end RingBuffer

/-- Where the producer is inside `push`. -/
inductive PushPc (α : Type*) where
  /-- Between two calls. -/
  | idle
  /-- `head` is loaded. -/
  | loadedHead (val : α) (head : ℕ)
  /-- `tail` is loaded and the buffer was not full. -/
  | checked (val : α) (head next : ℕ)
  /-- The slot is written. -/
  | written (val : α) (head next : ℕ)

/-- Where the consumer is inside `pop`. -/
inductive PopPc (α : Type*) where
  /-- Between two calls. -/
  | idle
  /-- `tail` is loaded. -/
  | loadedTail (tail : ℕ)
  /-- `head` is loaded and the buffer was not empty. -/
  | checked (tail : ℕ)
  /-- The slot is read. -/
  | read (tail : ℕ) (val : α)

/-- A ring buffer with its producer and its consumer. -/
structure Spsc (α : Type*) where
  ring : RingBuffer α
  push : PushPc α
  pop : PopPc α

namespace Spsc

open Fifo Circular

variable {α : Type*}

/-- The next access of the producer, `val` being the argument of the next call if it is idle.
`none` is the panic of an index out of range. -/
def pushStep (val : α) (s : Spsc α) : Option (Event α × Spsc α) :=
  match s.push with
  | .idle => some (.silent, { s with push := .loadedHead val s.ring.head })
  | .loadedHead val head =>
    let next := (head + 1) % BUF_SIZE
    if next = s.ring.tail then
      some (.dropped val, { s with push := .idle })
    else
      some (.silent, { s with push := .checked val head next })
  | .checked val head next =>
    if h : head < BUF_SIZE then
      some (.silent,
        { s with ring := { s.ring with data := s.ring.data.set head val h },
                 push := .written val head next })
    else
      none
  | .written val _ next =>
    some (.accepted val, { s with ring := { s.ring with head := next }, push := .idle })

/-- The next access of the consumer.  `none` is the panic of an index out of range. -/
def popStep (s : Spsc α) : Option (Event α × Spsc α) :=
  match s.pop with
  | .idle => some (.silent, { s with pop := .loadedTail s.ring.tail })
  | .loadedTail tail =>
    if tail = s.ring.head then
      some (.empty, { s with pop := .idle })
    else
      some (.silent, { s with pop := .checked tail })
  | .checked tail =>
    if h : tail < BUF_SIZE then
      some (.silent, { s with pop := .read tail s.ring.data[tail] })
    else
      none
  | .read tail val =>
    some (.popped val,
      { s with ring := { s.ring with tail := (tail + 1) % BUF_SIZE }, pop := .idle })

/-- One access of either side. -/
inductive Step : Spsc α → Event α → Spsc α → Prop
  | push {s s' : Spsc α} {e : Event α} (val : α) : s.pushStep val = some (e, s') → Step s e s'
  | pop {s s' : Spsc α} {e : Event α} : s.popStep = some (e, s') → Step s e s'

/-- The buffer before the first access: empty, with any contents of the slots. -/
def init (data : Vector α BUF_SIZE) : Spsc α := ⟨⟨data, 0, 0⟩, .idle, .idle⟩

/-! ### The invariant -/

/-- What the producer knows: its copy of `head` is current, and after the check there is room.
Pops that happen meanwhile only make more room. -/
def PushOk (r : RingBuffer α) : PushPc α → Prop
  | .idle => True
  | .loadedHead _ head => head = r.head
  | .checked _ head next =>
    head = r.head ∧ next = (head + 1) % BUF_SIZE ∧ r.count < BUF_SIZE - 1
  | .written val head next =>
    head = r.head ∧ next = (head + 1) % BUF_SIZE ∧ r.count < BUF_SIZE - 1 ∧
      r.slot (Fin.ofNat _ head) = val

/-- What the consumer knows: its copy of `tail` is current, after the check there is a value, and
the value read is still in its slot. -/
def PopOk (r : RingBuffer α) : PopPc α → Prop
  | .idle => True
  | .loadedTail tail => tail = r.tail
  | .checked tail => tail = r.tail ∧ 0 < r.count
  | .read tail val => tail = r.tail ∧ 0 < r.count ∧ r.slot (Fin.ofNat _ tail) = val

/-- The invariant of all reachable states. -/
structure Inv (s : Spsc α) : Prop where
  inRange : s.ring.InRange
  pushOk : PushOk s.ring s.push
  popOk : PopOk s.ring s.pop

theorem inv_init (data : Vector α BUF_SIZE) : (init data).Inv :=
  ⟨⟨by simp [init], by simp [init]⟩, trivial, trivial⟩

/-- The consumer's stores do not disturb the producer. -/
theorem PushOk.mono {r r' : RingBuffer α} {pc : PushPc α} (h : PushOk r pc)
    (hhead : r'.head = r.head) (hcount : r'.count ≤ r.count) (hslot : r'.slot = r.slot) :
    PushOk r' pc := by
  cases pc with
  | idle => trivial
  | loadedHead val head => exact h.trans hhead.symm
  | checked val head next =>
    exact ⟨h.1.trans hhead.symm, h.2.1, Nat.lt_of_le_of_lt hcount h.2.2⟩
  | written val head next =>
    exact ⟨h.1.trans hhead.symm, h.2.1, Nat.lt_of_le_of_lt hcount h.2.2.1, hslot ▸ h.2.2.2⟩

/-- The producer's stores do not disturb the consumer. -/
theorem PopOk.mono {r r' : RingBuffer α} {pc : PopPc α} (h : PopOk r pc)
    (htail : r'.tail = r.tail) (hcount : r.count ≤ r'.count)
    (hslot : 0 < r.count → r'.slot (Fin.ofNat _ r.tail) = r.slot (Fin.ofNat _ r.tail)) :
    PopOk r' pc := by
  cases pc with
  | idle => trivial
  | loadedTail tail => exact h.trans htail.symm
  | checked tail => exact ⟨h.1.trans htail.symm, Nat.lt_of_lt_of_le h.2 hcount⟩
  | read tail val =>
    obtain ⟨rfl, hpos, hval⟩ := h
    exact ⟨htail.symm, Nat.lt_of_lt_of_le hpos hcount, (hslot hpos).trans hval⟩

/-! ### Every access is a step of the bounded queue -/

/-- The values stored but not yet popped, oldest first. -/
abbrev stored (s : Spsc α) : List α := s.ring.stored

theorem pushStep_refines {s s' : Spsc α} {e : Event α} {v : α} (hi : s.Inv)
    (hst : s.pushStep v = some (e, s')) :
    Fifo.Step (BUF_SIZE - 1) s.stored e s'.stored ∧ s'.Inv := by
  obtain ⟨ring, pc, pop⟩ := s
  obtain ⟨hr, hpush, hpop⟩ := hi
  dsimp only at hr hpush hpop
  cases pc with
  | idle =>
    cases hst
    exact ⟨.silent _, hr, rfl, hpop⟩
  | loadedHead val head =>
    obtain rfl : head = ring.head := hpush
    simp only [pushStep] at hst
    split at hst <;> cases hst
    · rename_i hfull
      refine ⟨.drop _ _ ?_, hr, trivial, hpop⟩
      exact ring.length_stored.trans ((RingBuffer.count_eq_pred_iff hr).2 hfull)
    · rename_i hroom
      refine ⟨.silent _, hr, ⟨rfl, rfl, ?_⟩, hpop⟩
      have hlt : ring.count < BUF_SIZE := Nat.mod_lt _ (by decide)
      have hne := mt (RingBuffer.count_eq_pred_iff hr).1 hroom
      change ring.count < BUF_SIZE - 1
      omega
  | checked val head next =>
    obtain ⟨rfl, rfl, hroom⟩ := hpush
    simp only [pushStep, dif_pos hr.head_lt] at hst
    cases hst
    refine ⟨?_, ⟨hr.head_lt, hr.tail_lt⟩, ⟨rfl, rfl, hroom, ?_⟩,
      hpop.mono rfl (Nat.le_refl _) fun hpos => ?_⟩
    · change Fifo.Step _ ring.stored _ (ring.setHead val hr.head_lt).stored
      rw [RingBuffer.stored_setHead hr]; exact .silent _
    · exact (RingBuffer.slot_setHead val hr.head_lt _).trans (if_pos rfl)
    · have hne := RingBuffer.ofNat_ne_head hr hpos
      exact (RingBuffer.slot_setHead val hr.head_lt _).trans (if_neg hne)
  | written val head next =>
    obtain ⟨rfl, rfl, hroom, rfl⟩ := hpush
    cases hst
    have hstored := RingBuffer.stored_publish hr hroom
    have hcount := RingBuffer.count_publish hr hroom
    refine ⟨?_, hr.publish, trivial, hpop.mono rfl ?_ fun _ => rfl⟩
    · change Fifo.Step _ ring.stored _ ring.publish.stored
      rw [hstored]; exact .accept _ _ (by rw [RingBuffer.length_stored]; exact hroom)
    · exact Nat.le_trans (Nat.le_succ _) (Nat.le_of_eq hcount.symm)

theorem popStep_refines {s s' : Spsc α} {e : Event α} (hi : s.Inv)
    (hst : s.popStep = some (e, s')) :
    Fifo.Step (BUF_SIZE - 1) s.stored e s'.stored ∧ s'.Inv := by
  obtain ⟨ring, push, pc⟩ := s
  obtain ⟨hr, hpush, hpop⟩ := hi
  dsimp only at hr hpush hpop
  cases pc with
  | idle =>
    cases hst
    exact ⟨.silent _, hr, hpush, rfl⟩
  | loadedTail tail =>
    obtain rfl : tail = ring.tail := hpop
    simp only [popStep] at hst
    split at hst <;> cases hst
    · rename_i hempty
      have hnil : ring.stored = [] :=
        List.eq_nil_of_length_eq_zero (ring.length_stored.trans
          ((RingBuffer.count_eq_zero_iff hr).2 hempty))
      refine ⟨?_, hr, hpush, trivial⟩
      change Fifo.Step _ ring.stored _ ring.stored
      rw [hnil]; exact .empty
    · rename_i hne
      exact ⟨.silent _, hr, hpush, rfl,
        Nat.pos_of_ne_zero (mt (RingBuffer.count_eq_zero_iff hr).1 hne)⟩
  | checked tail =>
    obtain ⟨rfl, hpos⟩ := hpop
    simp only [popStep, dif_pos hr.tail_lt] at hst
    cases hst
    refine ⟨.silent _, hr, hpush, rfl, hpos, ?_⟩
    simp [RingBuffer.slot, Fin.ofNat, Nat.mod_eq_of_lt hr.tail_lt]
  | read tail val =>
    obtain ⟨rfl, hpos, rfl⟩ := hpop
    cases hst
    have hstored := RingBuffer.stored_release hr hpos
    have hcount := RingBuffer.count_release hr hpos
    refine ⟨?_, hr.release, hpush.mono rfl ?_ rfl, trivial⟩
    · change Fifo.Step _ ring.stored _ ring.release.stored
      rw [hstored]; exact .pop _ _
    · exact Nat.le_trans (Nat.le_of_eq hcount) (Nat.sub_le _ _)

/-- **The ring buffer refines the bounded queue** of capacity `BUF_SIZE - 1`. -/
theorem step_refines {s s' : Spsc α} {e : Event α} (hi : s.Inv) (hst : s.Step e s') :
    Fifo.Step (BUF_SIZE - 1) s.stored e s'.stored ∧ s'.Inv := by
  cases hst with
  | push val h => exact pushStep_refines hi h
  | pop h => exact popStep_refines hi h

/-- Every run of the ring buffer is a run of the bounded queue. -/
theorem trace_refines {s s' : Spsc α} {es : List (Event α)} (hi : s.Inv)
    (h : Trace Step s es s') :
    Trace (Fifo.Step (BUF_SIZE - 1)) s.stored es s'.stored ∧ s'.Inv := by
  have hsim := h.simulate (R := fun (s : Spsc α) q => s.Inv ∧ q = s.stored)
    (N := Fifo.Step (BUF_SIZE - 1)) (t := s.stored) (fun s e s' q hR hst => ?_) ⟨hi, rfl⟩
  · obtain ⟨q, hq, hi', rfl⟩ := hsim
    exact ⟨hq, hi'⟩
  · obtain ⟨hi, rfl⟩ := hR
    obtain ⟨hstep, hi'⟩ := step_refines hi hst
    exact ⟨_, hstep, hi', rfl⟩

/-- No access of a reachable state is out of range. -/
theorem step_isSome {s : Spsc α} (hi : s.Inv) (v : α) :
    (s.pushStep v).isSome ∧ s.popStep.isSome := by
  obtain ⟨ring, push, pop⟩ := s
  obtain ⟨hr, hpush, hpop⟩ := hi
  dsimp only at hr hpush hpop
  constructor
  · cases push with
    | checked val head next =>
      obtain ⟨rfl, -⟩ := hpush
      simp [pushStep, hr.head_lt]
    | loadedHead val head => simp only [pushStep]; split <;> rfl
    | _ => rfl
  · cases pop with
    | checked tail =>
      obtain ⟨rfl, -⟩ := hpop
      simp [popStep, hr.tail_lt]
    | loadedTail tail => simp only [popStep]; split <;> rfl
    | _ => rfl

/-- **The ring buffer is a bounded FIFO under any interleaving.**  In every state reached from an
empty buffer, with `es` the events so far:

* the popped values followed by the stored ones are the accepted pushes, in order;
* at most `BUF_SIZE - 1` values are stored;
* a producer about to write a slot and a consumer about to read one are at different slots;
* a push drops its value only while `BUF_SIZE - 1` values are stored;
* a pop returns `None` only while nothing is stored. -/
theorem fifo (data : Vector α BUF_SIZE) {es : List (Event α)} {s : Spsc α}
    (h : Trace Step (init data) es s) :
    popped es ++ s.stored = accepted es ∧
      s.stored.length ≤ BUF_SIZE - 1 ∧
      (∀ val head next tail, s.push = .checked val head next → s.pop = .checked tail →
        head ≠ tail) ∧
      (∀ val s', s.Step (.dropped val) s' → s.stored.length = BUF_SIZE - 1) ∧
      (∀ s', s.Step .empty s' → s.stored = []) := by
  obtain ⟨htrace, hi⟩ := trace_refines (inv_init data) h
  have hnil : (init data).stored = [] := by
    simp [stored, RingBuffer.stored, RingBuffer.count, init, window]
  rw [hnil] at htrace
  refine ⟨popped_append htrace, Fifo.length_le htrace (Nat.zero_le _), ?_, ?_, ?_⟩
  · intro val head next tail hpush hpop heq
    have h1 := hi.pushOk
    have h2 := hi.popOk
    rw [hpush] at h1
    rw [hpop] at h2
    have hne := RingBuffer.ofNat_ne_head hi.inRange h2.2
    exact hne (by rw [Nat.add_zero, ← h2.1, ← h1.1, heq])
  · exact fun val s' hst => (step_refines hi hst).1.length_of_dropped
  · exact fun s' hst => (step_refines hi hst).1.eq_nil_of_empty

/-- A pop that loads `tail` before the value is published and `head` after it. -/
theorem fifo_overlapping :
    ∃ s : Spsc UInt8,
      let es : List (Event UInt8) :=
        [.silent, .silent, .silent, .silent, .accepted 7, .silent, .silent, .popped 7]
      Trace Step (init (Vector.replicate _ 0)) es s ∧
      popped es ++ s.stored = accepted es ∧
      s.stored.length ≤ BUF_SIZE - 1 ∧
      (∀ val head next tail, s.push = .checked val head next → s.pop = .checked tail →
        head ≠ tail) ∧
      (∀ val s', s.Step (.dropped val) s' → s.stored.length = BUF_SIZE - 1) ∧
      (∀ s', s.Step .empty s' → s.stored = []) :=
  have h := .cons (.push 7 rfl) (.cons (.push 7 rfl) (.cons (.push 7 rfl) (.cons (.pop rfl)
    (.cons (.push 7 rfl) (.cons (.pop rfl) (.cons (.pop rfl) (.cons (.pop rfl) (.nil _))))))))
  ⟨_, h, fifo _ h⟩

end Spsc

end ROs
