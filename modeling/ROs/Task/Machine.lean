import ROs.Lib.Region

/-!
# The context switch

The machine `switch_context` runs on: the stack pointer, the callee-saved registers and a
word-addressed memory (a word is named by the address of its first byte).  `switchContext` is the
assembly of `task.rs`, one constructor of `Instr` for each kind of instruction; its arguments
`rdi` and `rsi` are written by none of them, so they are parameters of `exec`.

* `Machine.switchContext_eq` : what the call of `switch_context` does: seven words are pushed
  (`saveFrame`), `rsp` is stored at `[rdi]`, and control continues in the state that the seven
  words at `[rsi]` describe (`loadFrame`).
* `loadFrame_saveFrame` : **the two halves agree**: loading the frame that a call has saved gives
  back its return address, its `rsp` and its six registers.
* `loadFrame_congr` : the state loaded depends only on the seven words of the frame.
-/

namespace ROs

/-- The registers that a callee must preserve, besides `rsp`. -/
structure Regs where
  rbp : UInt64
  rbx : UInt64
  r12 : UInt64
  r13 : UInt64
  r14 : UInt64
  r15 : UInt64
deriving DecidableEq

namespace Regs

/-- All six registers zero, as `spawn` prepares them. -/
def zero : Regs := ⟨0, 0, 0, 0, 0, 0⟩

end Regs

/-- The name of a callee-saved register. -/
inductive Reg
  | rbp | rbx | r12 | r13 | r14 | r15
deriving DecidableEq

namespace Regs

/-- Reading a register. -/
def get (g : Regs) : Reg → UInt64
  | .rbp => g.rbp
  | .rbx => g.rbx
  | .r12 => g.r12
  | .r13 => g.r13
  | .r14 => g.r14
  | .r15 => g.r15

/-- Writing a register. -/
def set (g : Regs) (r : Reg) (v : UInt64) : Regs :=
  match r with
  | .rbp => { g with rbp := v }
  | .rbx => { g with rbx := v }
  | .r12 => { g with r12 := v }
  | .r13 => { g with r13 := v }
  | .r14 => { g with r14 := v }
  | .r15 => { g with r15 := v }

end Regs

/-- The registers a context switch is about.  `rip` is the address of the next instruction: while
a `call` executes, that is its return address. -/
structure Cpu where
  rip : UInt64
  rsp : UInt64
  regs : Regs
deriving DecidableEq

/-- A processor and its memory. -/
structure Machine where
  cpu : Cpu
  mem : Memory

/-- The instructions of `switch_context`. -/
inductive Instr
  | push (r : Reg)
  | pop (r : Reg)
  /-- `mov [rdi], rsp` -/
  | saveRsp
  /-- `mov rsp, [rsi]` -/
  | loadRsp
  | ret
deriving DecidableEq

/-- The body of `switch_context`. -/
def switchContext : List Instr :=
  [.push .rbp, .push .rbx, .push .r12, .push .r13, .push .r14, .push .r15,
    .saveRsp, .loadRsp,
    .pop .r15, .pop .r14, .pop .r13, .pop .r12, .pop .rbx, .pop .rbp, .ret]

namespace Machine

variable (rdi rsi : UInt64)

/-- One instruction. -/
def exec (m : Machine) : Instr → Machine
  | .push r =>
    { cpu := { m.cpu with rsp := m.cpu.rsp - 8 }
      mem := m.mem.write (m.cpu.rsp - 8) (m.cpu.regs.get r) }
  | .pop r =>
    { m with
      cpu := { m.cpu with rsp := m.cpu.rsp + 8, regs := m.cpu.regs.set r (m.mem m.cpu.rsp) } }
  | .saveRsp => { m with mem := m.mem.write rdi m.cpu.rsp }
  | .loadRsp => { m with cpu := { m.cpu with rsp := m.mem rsi } }
  | .ret => { m with cpu := { m.cpu with rip := m.mem m.cpu.rsp, rsp := m.cpu.rsp + 8 } }

/-- The `call` instruction: the return address goes onto the stack. -/
def call (m : Machine) : Machine :=
  { cpu := { m.cpu with rsp := m.cpu.rsp - 8 }
    mem := m.mem.write (m.cpu.rsp - 8) m.cpu.rip }

/-- `switch_context(old, new)`: the call, then its body up to and including the `ret`. -/
def switch (m : Machine) : Machine := switchContext.foldl (exec rdi rsi) m.call

end Machine

/-- The memory after a call at `c` of `switch_context` has pushed the return address and the six
registers. -/
def saveFrame (mem : Memory) (c : Cpu) : Memory :=
  ((((((mem.write (c.rsp - 8) c.rip).write (c.rsp - 16) c.regs.rbp).write
    (c.rsp - 24) c.regs.rbx).write (c.rsp - 32) c.regs.r12).write
    (c.rsp - 40) c.regs.r13).write (c.rsp - 48) c.regs.r14).write (c.rsp - 56) c.regs.r15

/-- The state that the six pops and the `ret` leave, from a frame at `sp`. -/
def loadFrame (mem : Memory) (sp : UInt64) : Cpu :=
  { rip := mem (sp + 48)
    rsp := sp + 56
    regs :=
      { r15 := mem sp
        r14 := mem (sp + 8)
        r13 := mem (sp + 16)
        r12 := mem (sp + 24)
        rbx := mem (sp + 32)
        rbp := mem (sp + 40) } }

/-- **The context switch**: the old frame is saved and its address stored at `[rdi]`, then the
frame whose address is at `[rsi]` is loaded. -/
theorem Machine.switchContext_eq (rdi rsi : UInt64) (m : Machine) :
    m.switch rdi rsi =
      { cpu := loadFrame ((saveFrame m.mem m.cpu).write rdi (m.cpu.rsp - 56))
          ((saveFrame m.mem m.cpu).write rdi (m.cpu.rsp - 56) rsi)
        mem := (saveFrame m.mem m.cpu).write rdi (m.cpu.rsp - 56) } := by
  -- the offsets of the pushes and pops, from one stack pointer
  have hsub : ∀ a b c : UInt64, a - b - c = a - (b + c) := by grind
  have hadd : ∀ a b c : UInt64, a + b + c = a + (b + c) := by grind
  simp only [switch, switchContext, List.foldl, exec, call, Regs.get, Regs.set, saveFrame,
    loadFrame, hsub, hadd]
  rfl

/-- **A saved frame is loaded back as it was**: return address, stack pointer and registers. -/
theorem loadFrame_saveFrame (mem : Memory) (c : Cpu) :
    loadFrame (saveFrame mem c) (c.rsp - 56) = c := by
  obtain ⟨rip, rsp, regs⟩ := c
  have h8 : rsp - 56 + 8 = rsp - 48 := by grind
  have h16 : rsp - 56 + 16 = rsp - 40 := by grind
  have h24 : rsp - 56 + 24 = rsp - 32 := by grind
  have h32 : rsp - 56 + 32 = rsp - 24 := by grind
  have h40 : rsp - 56 + 40 = rsp - 16 := by grind
  have h48 : rsp - 56 + 48 = rsp - 8 := by grind
  have h56 : rsp - 56 + 56 = rsp := by grind
  simp only [loadFrame, saveFrame, h8, h16, h24, h32, h40, h48, h56]
  simp [Memory.write]

/-- The words of a frame at `sp`. -/
def frameWords (sp : UInt64) : List UInt64 :=
  [sp, sp + 8, sp + 16, sp + 24, sp + 32, sp + 40, sp + 48]

/-- What is loaded depends on the seven words of the frame only. -/
theorem loadFrame_congr {mem mem' : Memory} {sp : UInt64}
    (h : ∀ a ∈ frameWords sp, mem' a = mem a) : loadFrame mem' sp = loadFrame mem sp := by
  simp only [frameWords, List.mem_cons, List.not_mem_nil, or_false, forall_eq_or_imp,
    forall_eq] at h
  obtain ⟨h0, h8, h16, h24, h32, h40, h48⟩ := h
  simp only [loadFrame, h0, h8, h16, h24, h32, h40, h48]

/-- The words that the pushes write, from the last to the first. -/
theorem frameWords_sub (a : UInt64) :
    frameWords (a - 56) = [a - 56, a - 48, a - 40, a - 32, a - 24, a - 16, a - 8] := by
  simp only [frameWords, List.cons.injEq]
  grind

/-- Saving a frame writes its seven words only. -/
theorem saveFrame_of_notMem {mem : Memory} {c : Cpu} {a : UInt64}
    (h : a ∉ frameWords (c.rsp - 56)) : saveFrame mem c a = mem a := by
  simp only [frameWords_sub, List.mem_cons, List.not_mem_nil, or_false, not_or] at h
  obtain ⟨h0, h8, h16, h24, h32, h40, h48⟩ := h
  simp only [saveFrame]
  rw [Memory.write_of_ne h0, Memory.write_of_ne h8, Memory.write_of_ne h16,
    Memory.write_of_ne h24, Memory.write_of_ne h32, Memory.write_of_ne h40,
    Memory.write_of_ne h48]

/-- The seven words of a frame at `sp` lie in the region. -/
def Region.HasFrame (r : Region) (sp : UInt64) : Prop := r.lo ≤ sp.toNat ∧ sp.toNat + 56 ≤ r.hi

namespace Region

variable {r : Region} {sp a : UInt64}

theorem HasFrame.word (h : r.HasFrame sp) (hr : r.hi < 2 ^ 64) (ha : a ∈ frameWords sp) :
    r.Word a := by
  -- an offset of at most 48 does not wrap
  have key : ∀ k : UInt64, k.toNat ≤ 48 → r.Word (sp + k) := by
    intro k hk
    unfold HasFrame at h
    unfold Word
    rw [UInt64.toNat_add, Nat.mod_eq_of_lt (by omega)]
    omega
  have h0 : sp = sp + 0 := by grind
  simp only [frameWords, List.mem_cons, List.not_mem_nil, or_false] at ha
  rcases ha with rfl | rfl | rfl | rfl | rfl | rfl | rfl
  · rw [h0]
    exact key 0 (by decide)
  all_goals exact key _ (by decide)

/-- There is room for a frame below the stack pointer. -/
theorem hasFrame_sub (hlo : r.lo + 56 ≤ sp.toNat) (hhi : sp.toNat ≤ r.hi) :
    r.HasFrame (sp - 56) := by
  have hle : (56 : UInt64) ≤ sp := by
    rw [UInt64.le_iff_toNat_le, show (56 : UInt64).toNat = 56 from rfl]
    omega
  unfold HasFrame
  rw [UInt64.toNat_sub_of_le _ _ hle, show (56 : UInt64).toNat = 56 from rfl]
  omega

/-- The stack pointer that is left when a frame has been popped. -/
theorem HasFrame.holds (h : r.HasFrame sp) (hr : r.hi < 2 ^ 64) : r.Holds (sp + 56) := by
  have h56 : (56 : UInt64).toNat = 56 := rfl
  unfold HasFrame at h
  unfold Holds
  rw [UInt64.toNat_add, h56, Nat.mod_eq_of_lt (by omega)]
  omega

end Region

end ROs
