import Mathlib.Data.Prod.Lex
import ROs.System.Next

/-!
# Progress

Between two interrupts the system does not go on for ever: it reaches the `hlt` of the idle loop, or
the shell has been halted (`System.Quiet`).  What decreases is `System.left`: the turns that are left,
and within a turn what the flow of control has still to do, the values in the queues that it empties
and the calls that are left to it.

* `System.Inv.exists_run_lt` : a step that is not quiet leaves less to do.
* `System.Inv.exists_uninterrupted` : so a goal is reached, if all quiet states are goals.
-/

namespace ROs

/-! ### What is left to do -/

namespace Spsc

variable {α : Type*} {s s' : Spsc α} {e : Fifo.Event α}

/-- The accesses of the consumer until the queue is empty. -/
def left (s : Spsc α) : ℕ :=
  5 * s.stored.length + match s.pop with
    | .idle => 3
    | .loadedTail _ => 2
    | .checked _ => 1
    | .read .. => 0

/-- **An access of the consumer** leaves less to do, unless it finds the queue empty. -/
theorem left_lt (hi : s.Inv) (h : s.popStep = some (e, s')) (hne : e ≠ .empty) :
    s'.left < s.left ∧ ∀ v, e = .popped v → s'.left + 1 < s.left := by
  obtain ⟨hstep, -⟩ := popStep_refines hi h
  obtain ⟨ring, push, pop⟩ := s
  cases pop with
  | idle =>
    cases h
    exact ⟨Nat.lt_succ_self _, nofun⟩
  | loadedTail tail =>
    by_cases hempty : tail = ring.head
    · cases (if_pos hempty).symm.trans h
      exact absurd rfl hne
    · cases (if_neg hempty).symm.trans h
      exact ⟨Nat.lt_succ_self _, nofun⟩
  | checked tail =>
    by_cases hlt : tail < BUF_SIZE
    · cases (dif_pos hlt).symm.trans h
      exact ⟨Nat.lt_succ_self _, nofun⟩
    · cases (dif_neg hlt).symm.trans h
  | read tail val =>
    obtain ⟨he, hidle⟩ : e = .popped val ∧ s'.pop = .idle := by
      cases h
      exact ⟨rfl, rfl⟩
    rw [he] at hstep
    have hlen := congrArg List.length hstep.eq_cons_of_popped
    have hlt : s'.left + 1 < (Spsc.mk ring push (.read tail val)).left := by
      rw [left, left, hlen, hidle, List.length_cons]
      exact Nat.lt_succ_of_le (Nat.le_refl _)
    exact ⟨Nat.lt_of_succ_lt hlt, fun _ _ => hlt⟩

end Spsc

/-- What the idle loop has left to do in its turn: the stages before it, and what is left of the
present one. -/
def IdlePc.left (q : Spsc MouseEvent) : IdlePc → ℕ ×ₗ ℕ
  | .reading => toLex (3, q.left)
  | .handling _ => toLex (3, q.left + 1)
  | .checking => toLex (2, 0)
  | .compositing | .halting => toLex (1, 0)
  | .yielding | .waiting => toLex (0, 0)

/-- What the shell has left to do in its turn. -/
def ShellPc.left (q : Spsc UInt8) : ShellPc → ℕ ×ₗ ℕ
  | .entry => toLex (5, 0)
  | .starting _ ops _ => toLex (4, ops.length)
  | .polling .. => toLex (3, 0)
  | .reading .. => toLex (2, q.left)
  | .handling _ ops _ => toLex (1, ops.length)
  | .yielding .. | .halted => toLex (0, 0)

/-- What the memory map has left to do in its turn. -/
def MemmapPc.left : MemmapPc → ℕ ×ₗ ℕ
  | .entry => toLex (3, 0)
  | .drawing _ => toLex (2, 0)
  | .marking _ => toLex (1, 0)
  | .yielding => toLex (0, 0)

/-- What the counter has left to do in its turn. -/
def CounterPc.left : CounterPc → ℕ ×ₗ ℕ
  | .entry => toLex (4, 0)
  | .starting _ ops _ => toLex (3, ops.length)
  | .polling .. => toLex (2, 0)
  | .drawing _ ops _ _ => toLex (1, ops.length)
  | .yielding .. => toLex (0, 0)

/-- A later stage leaves less to do. -/
theorem stage_lt {a b a' b' : ℕ} (h : a' < a) : (toLex (a', b') : ℕ ×ₗ ℕ) < toLex (a, b) :=
  Prod.Lex.toLex_lt_toLex.2 (.inl h)

/-- The same stage, with less to do. -/
theorem rest_lt {a b b' : ℕ} (h : b' < b) : (toLex (a, b') : ℕ ×ₗ ℕ) < toLex (a, b) :=
  Prod.Lex.toLex_lt_toLex.2 (.inr ⟨rfl, h⟩)

variable {statics : Statics} {e : System.Event}

theorem IdlePc.Next.left_lt {pc pc' : IdlePc} {q q' : Spsc MouseEvent} (hi : q.Inv)
    (h : Next statics pc q e pc' q') (hwait : pc ≠ .waiting) : pc'.left q' < pc.left q := by
  cases h with
  | look hpop _ hne => exact rest_lt (Spsc.left_lt hi hpop hne).1
  | take hpop => exact rest_lt ((Spsc.left_lt hi hpop nofun).2 _ rfl)
  | none => exact stage_lt (by decide)
  | handle event => exact rest_lt (Nat.lt_succ_self _)
  | due | notDue | composite | halt => exact stage_lt (by decide)
  | wait => exact absurd rfl hwait

theorem ShellPc.Next.left_lt {pc pc' : ShellPc} {q q' : Spsc UInt8} (hi : q.Inv)
    (h : Next statics pc q e pc' q') (hhalted : pc ≠ .halted) : pc'.left q' < pc.left q := by
  cases h with
  | look winId line hpop hne => exact rest_lt (Spsc.left_lt hi hpop hne).1
  | start | handle => exact rest_lt (Nat.lt_succ_self _)
  | enter | started | focused | unfocused | key | none | handled | startHalt | halt =>
    exact stage_lt (by decide)
  | halted => exact absurd rfl hhalted

theorem MemmapPc.Next.left_lt {pc pc' : MemmapPc} (h : Next pc e pc') : pc'.left < pc.left := by
  cases h with
  | enter | draw | mark => exact stage_lt (by decide)

theorem CounterPc.Next.left_lt {ticks : UInt64} {pc pc' : CounterPc} (h : Next ticks pc e pc') :
    pc'.left < pc.left := by
  cases h with
  | start | draw => exact rest_lt (Nat.lt_succ_self _)
  | enter | started | due | notDue | drawn => exact stage_lt (by decide)

/-- The flow that is executed after this one. -/
def Flow.next : Flow → Flow
  | .idle => .shell
  | .shell => .memmap
  | .memmap => .counter
  | .counter => .idle

theorem Flow.ofIndex_succ (n : ℕ) :
    ofIndex ((n + 1) % 4) = (ofIndex (n % 4)).next := by
  have hlt : n % 4 < 4 := Nat.mod_lt _ (by decide)
  rw [← Nat.mod_add_mod]
  generalize n % 4 = k at hlt
  interval_cases k <;> rfl

/-- The turns until the idle loop is about to halt. -/
def Flow.turnsLeft : Flow → IdlePc → ℕ
  | .idle, .halting | .idle, .waiting => 0
  | .idle, _ => 4
  | .shell, _ => 3
  | .memmap, _ => 2
  | .counter, _ => 1

theorem IdlePc.turnsLeft_of_awake {pc : IdlePc} (h : pc ≠ .halting ∧ pc ≠ .waiting) :
    Flow.idle.turnsLeft pc = 4 := by
  cases pc with
  | halting => exact absurd rfl h.1
  | waiting => exact absurd rfl h.2
  | reading | handling | checking | compositing | yielding => rfl

theorem IdlePc.Next.turnsLeft_eq {pc pc' : IdlePc} {q q' : Spsc MouseEvent}
    (h : Next statics pc q e pc' q') : Flow.idle.turnsLeft pc' = Flow.idle.turnsLeft pc := by
  cases h <;> rfl

namespace System

variable {D : KeyDecoder}

/-- What is left to do in the turn. -/
def leftInTurn (s : System D) : ℕ ×ₗ ℕ :=
  match s.flow with
  | .idle => s.idle.left s.input.mouseEvents
  | .shell => s.shell.left s.input.scancodes
  | .memmap => s.memmap.left
  | .counter => s.counter.left

/-- What is left to do. -/
def left (s : System D) : ℕ ×ₗ (ℕ ×ₗ ℕ) := toLex (s.flow.turnsLeft s.idle, s.leftInTurn)

/-- The idle loop waits for an interrupt, or the shell has been halted. -/
def Quiet (s : System D) : Prop :=
  s.flow = .idle ∧ s.idle = .waiting ∨ s.flow = .shell ∧ s.shell = .halted

/-! ### A step leaves less to do -/

variable {s s' : System D} {e : Event}

theorem left_lt_of_turnsLeft (h : s'.flow.turnsLeft s'.idle < s.flow.turnsLeft s.idle) :
    s'.left < s.left :=
  Prod.Lex.toLex_lt_toLex.2 (.inl h)

theorem left_lt_of_leftInTurn (h : s'.flow.turnsLeft s'.idle = s.flow.turnsLeft s.idle)
    (hlt : s'.leftInTurn < s.leftInTurn) : s'.left < s.left :=
  Prod.Lex.toLex_lt_toLex.2 (.inr ⟨h, hlt⟩)

theorem leftInTurn_idle (h : s.flow = .idle) : s.leftInTurn = s.idle.left s.input.mouseEvents := by
  rw [leftInTurn, h]

theorem leftInTurn_shell (h : s.flow = .shell) : s.leftInTurn = s.shell.left s.input.scancodes := by
  rw [leftInTurn, h]

theorem leftInTurn_memmap (h : s.flow = .memmap) : s.leftInTurn = s.memmap.left := by
  rw [leftInTurn, h]

theorem leftInTurn_counter (h : s.flow = .counter) : s.leftInTurn = s.counter.left := by
  rw [leftInTurn, h]

variable [BasicFonts] {info : FrameBufferInfo} {fb : Buf} {h : History}

/-- A call of `yield_now` hands the processor on to the next flow. -/
theorem Inv.flow_of_yield (hi : Inv info h s) (hi' : Inv info (h.add .yield) s') :
    s'.flow = s.flow.next := by
  rw [(flow_eq hi'.turn.toInTurn).1, (flow_eq hi.turn.toInTurn).1, hi'.turn.current_eq,
    hi.turn.current_eq]
  exact Flow.ofIndex_succ _

/-- **A step that is not quiet leaves less to do.** -/
theorem Inv.exists_run_lt (hb : BootScreen info fb) (hi : Inv info h s) (hq : ¬ s.Quiet) :
    ∃ e s', s.run = some (e, s') ∧ Inv info (h.add e) s' ∧ s'.left < s.left := by
  obtain ⟨e, s', hrun, hi'⟩ := hi.exists_run hb
  refine ⟨e, s', hrun, hi', ?_⟩
  obtain ⟨hscancodes, hmouseEvents, -⟩ := hi.received.recorded.ok
  cases runStep_of_run hrun with
  | @idle _ statics q idle hflow hnext =>
    refine left_lt_of_leftInTurn ?_ ?_
    · refine Eq.trans ?_ (hnext.turnsLeft_eq.trans ?_)
      · exact congrArg (fun flow => Flow.turnsLeft flow idle) hflow
      · rw [hflow]
    · calc
        _ = idle.left q := leftInTurn_idle (by exact hflow)
        _ < s.idle.left s.input.mouseEvents :=
          hnext.left_lt hmouseEvents fun hidle => hq (.inl ⟨hflow, hidle⟩)
        _ = s.leftInTurn := (leftInTurn_idle hflow).symm
  | @shell _ statics q keyboard shell hflow hnext =>
    refine left_lt_of_leftInTurn rfl ?_
    calc
      _ = shell.left q := leftInTurn_shell (by exact hflow)
      _ < s.shell.left s.input.scancodes :=
        hnext.left_lt hscancodes fun hshell => hq (.inr ⟨hflow, hshell⟩)
      _ = s.leftInTurn := (leftInTurn_shell hflow).symm
  | @memmap _ statics memmap hflow hnext =>
    refine left_lt_of_leftInTurn rfl ?_
    calc
      _ = memmap.left := leftInTurn_memmap (by exact hflow)
      _ < s.memmap.left := hnext.left_lt
      _ = s.leftInTurn := (leftInTurn_memmap hflow).symm
  | @counter _ statics counter hflow hnext =>
    refine left_lt_of_leftInTurn rfl ?_
    calc
      _ = counter.left := leftInTurn_counter (by exact hflow)
      _ < s.counter.left := hnext.left_lt
      _ = s.leftInTurn := (leftInTurn_counter hflow).symm
  | idleYield _ hflow hpc =>
    refine left_lt_of_turnsLeft ?_
    rw [hi.flow_of_yield hi', hflow, hpc]
    exact Nat.lt_succ_self _
  | shellYield _ hflow =>
    refine left_lt_of_turnsLeft ?_
    rw [hi.flow_of_yield hi', hflow]
    exact Nat.lt_succ_self _
  | memmapYield _ hflow =>
    refine left_lt_of_turnsLeft ?_
    rw [hi.flow_of_yield hi', hflow]
    exact Nat.lt_succ_self _
  | counterYield _ hflow =>
    refine left_lt_of_turnsLeft ?_
    have hparked : s.idle = .halting := hi.parked.idle (by rw [hflow]; decide)
    rw [hi.flow_of_yield hi', hflow]
    change Flow.turnsLeft .idle s.idle < _
    rw [hparked]
    exact Nat.lt_succ_self _

/-! ### Goals are reached -/

/-- A step without an interrupt, of a system that is not quiet. -/
def Uninterrupted (s : System D) (e : Event) (s' : System D) : Prop :=
  ¬ s.Quiet ∧ s.run = some (e, s')

/-- **Without interrupts there is no input.** -/
theorem Inv.sameInput_of_uninterrupted (hb : BootScreen info fb) {es es' : List Event}
    (hi : Inv info (.of es) s) (hrun : Trace Uninterrupted s es' s') :
    (History.of es).SameInput (.of (es ++ es')) := by
  refine (hrun.history_append (I := fun pre s => Inv info (.of pre) s ∧
    (History.of es).SameInput (.of pre)) (fun pre a e b hI hst => ?_) ⟨hi, .refl _⟩).2
  rw [History.of_append]
  exact ⟨hI.1.step hb (.run hst.2), hI.2.trans (hI.1.sameInput_of_run hst.2)⟩

/-- **A goal is reached without an interrupt**, if all quiet states are goals.  `J` is what the steps
until then keep. -/
theorem Inv.exists_uninterrupted (hb : BootScreen info fb) {J : History → System D → Prop}
    {goal : System D → Prop} (hgoal : ∀ s, s.Quiet → goal s)
    (hJ : ∀ h s e s', Inv info h s → J h s → ¬ goal s → s.run = some (e, s') → J (h.add e) s')
    {es : List Event} (hi : Inv info (.of es) s) (hj : J (.of es) s) :
    ∃ es' s', Trace Uninterrupted s es' s' ∧ Inv info (.of (es ++ es')) s' ∧
      J (.of (es ++ es')) s' ∧ goal s' := by
  have hstep : ∀ (pre : List Event) (s : System D), (Inv info (.of pre) s ∧ J (.of pre) s) →
      ¬ goal s → ∃ e s', Uninterrupted s e s' ∧
        (Inv info (.of (pre ++ [e])) s' ∧ J (.of (pre ++ [e])) s') ∧ s'.left < s.left := by
    intro pre s hs hno
    have hbusy : ¬ s.Quiet := fun hq => hno (hgoal s hq)
    obtain ⟨e, s', hrun, hi', hlt⟩ := hs.1.exists_run_lt hb hbusy
    refine ⟨e, s', ⟨hbusy, hrun⟩, ⟨?_, ?_⟩, hlt⟩
    · rw [History.of_append]
      exact hi'
    · rw [History.of_append]
      exact hJ _ s e s' hs.1 hs.2 hno hrun
  obtain ⟨es', s', htrace, ⟨hi', hj'⟩, hgoal'⟩ := Trace.exists_of_lt left hstep ⟨hi, hj⟩
  exact ⟨es', s', htrace, hi', hj', hgoal'⟩

end System

end ROs
