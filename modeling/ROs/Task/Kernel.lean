import ROs.Lib.Trace
import ROs.Task.Machine
import ROs.Task.Scheduler

/-!
# The kernel as a transition system

One processor runs the flows of control of `task.rs`: the boot flow, which `run` turns into the
idle task, and the spawned tasks.  `Kernel` is the state they share and `Step` what happens to it:
code running on its own stack, `without_interrupts`, `spawn`, `run`, `yield_now`.

The saved stack pointers are words of memory, inside the vector of tasks: `contextAddr` is the
address of the context of the task at an index, for whatever layout the compiler gives `Task`, and
`spawn` and `run` may move the vector.  The choices of the allocator are arbitrary, as long as an
allocation is disjoint from the live ones.

A flow of control is known by the stack it is on (`Kernel.flowStacks`).  What `without_interrupts`
remembers is a local variable of its caller, so `remembered` belongs to a stack: the flags that
the open calls on it have found, innermost first.
-/

namespace ROs

/-- The layout that the compiler gives `Task`: its size and the offset of `context.rsp`. -/
structure TaskLayout where
  size : ℕ
  contextOffset : ℕ
  fits : contextOffset + 8 ≤ size

/-- The address of `tasks[i].context.rsp`, for a vector at `tasksPtr`. -/
def contextAddr (L : TaskLayout) (tasksPtr : UInt64) (i : ℕ) : UInt64 :=
  tasksPtr + UInt64.ofNat (i * L.size + L.contextOffset)

/-- The buffer of a vector of `n` tasks. -/
def tasksRegion (L : TaskLayout) (tasksPtr : UInt64) (n : ℕ) : Region :=
  ⟨tasksPtr.toNat, tasksPtr.toNat + n * L.size⟩

/-- The stack vector allocated at `stack`. -/
def taskStack (stack : UInt64) : Region := ⟨stack.toNat, stack.toNat + TASK_STACK_SIZE.toNat⟩

/-- The stack a task runs on: its own, or the one of `kernel_main` for the idle task. -/
def Task.region (kernelStack : Region) (t : Task) : Region :=
  match t.stack with
  | some stack => taskStack stack
  | none => kernelStack

/-- The words that `spawn` pushes by hand, and the stack pointer it ends with. -/
def buildFrame (mem : Memory) (stackTop entry : UInt64) : Memory × UInt64 :=
  let sp := stackTop - 8
  let mem := mem.write sp entry
  let sp := sp - 8
  let mem := mem.write sp 0 -- rbp
  let sp := sp - 8
  let mem := mem.write sp 0 -- rbx
  let sp := sp - 8
  let mem := mem.write sp 0 -- r12
  let sp := sp - 8
  let mem := mem.write sp 0 -- r13
  let sp := sp - 8
  let mem := mem.write sp 0 -- r14
  let sp := sp - 8
  let mem := mem.write sp 0 -- r15
  (mem, sp)

/-- The memory with `vec![0u8; TASK_STACK_SIZE]` at `stack`. -/
def zeroed (mem : Memory) (stack : UInt64) : Memory :=
  fun a => if (taskStack stack).Word a then 0 else mem a

/-- The state of the machine and of `task.rs`. -/
structure Kernel where
  cpu : Cpu
  mem : Memory
  /-- The interrupt flag of the processor. -/
  interruptFlag : Bool
  /-- `SCHEDULER`. -/
  scheduler : Option Scheduler
  /-- `SCHEDULER_RUNNING`. -/
  schedulerRunning : Bool
  /-- Where the vector of tasks has its buffer. -/
  tasksPtr : UInt64
  /-- The stack of `kernel_main`. -/
  kernelStack : Region
  /-- The flags remembered by the open calls of `without_interrupts`, for each stack. -/
  remembered : Region → List Bool

namespace Kernel

/-- The tasks that exist. -/
def tasks (k : Kernel) : List Task :=
  match k.scheduler with
  | some s => s.tasks
  | none => []

/-- `current`. -/
def current (k : Kernel) : ℕ :=
  match k.scheduler with
  | some s => s.current
  | none => 0

/-- The next id to be given out. -/
def nextId (k : Kernel) : ℕ :=
  match k.scheduler with
  | some s => s.nextId
  | none => 0

/-- The stacks of all flows of control.  Before `run` the boot flow is not yet a task. -/
def flowStacks (k : Kernel) : List Region :=
  if k.schedulerRunning then k.tasks.map (Task.region k.kernelStack)
  else k.kernelStack :: k.tasks.map (Task.region k.kernelStack)

/-- The position in `flowStacks` of the flow of control that ought to be executed: the current
task, or before `run` the boot flow. -/
def flow (k : Kernel) : ℕ := if k.schedulerRunning then k.current else 0

/-- The flow of control on the stack `r` is the one the processor executes. -/
def Active (k : Kernel) (r : Region) : Prop := r ∈ k.flowStacks ∧ r.Holds k.cpu.rsp

/-- `mem` differs from the memory of `k` on no stack but the one in use. -/
def Untouched (k : Kernel) (mem : Memory) : Prop :=
  ∀ r ∈ k.flowStacks, ¬ r.Holds k.cpu.rsp → ∀ a, r.Word a → mem a = k.mem a

/-- `without_interrupts`, called on the stack `r`, up to the call of its closure. -/
def enterSection (k : Kernel) (r : Region) : Kernel :=
  { k with
    interruptFlag := false
    remembered := fun r' => if r' = r then k.interruptFlag :: k.remembered r else k.remembered r' }

/-- The end of the innermost call of `without_interrupts` on the stack `r`: interrupts are
enabled again if they were enabled at its start. -/
def leaveSection (k : Kernel) (r : Region) : Option Kernel :=
  match k.remembered r with
  | [] => none
  | flag :: flags =>
    some { k with
      interruptFlag := if flag then true else k.interruptFlag
      remembered := fun r' => if r' = r then flags else k.remembered r' }

/-- `switch_context(old_ctx, new_ctx)` with the bookkeeping before it. -/
def switchTo (L : TaskLayout) (k : Kernel) (s : Scheduler) (next : ℕ) : Kernel :=
  let m := Machine.switch (contextAddr L k.tasksPtr s.current) (contextAddr L k.tasksPtr next)
    ⟨k.cpu, k.mem⟩
  { k with cpu := m.cpu, mem := m.mem, scheduler := some (s.dispatch next) }

/-- The state after `spawn`, for the memory and the vector it leaves. -/
def spawn (k : Kernel) (s : Scheduler) (stack : UInt64) (windowId : Option ℕ) (tasksPtr : UInt64)
    (mem : Memory) : Kernel :=
  { k with
    mem := mem
    scheduler := some (s.spawn stack windowId)
    tasksPtr := tasksPtr
    remembered := fun r => if r = taskStack stack then [] else k.remembered r }

/-- The state after the first part of `run`. -/
def register (k : Kernel) (s : Scheduler) (tasksPtr : UInt64) (mem : Memory) : Kernel :=
  { k with
    mem := mem
    scheduler := some s.register
    schedulerRunning := true
    tasksPtr := tasksPtr }

/-- What `spawn` and `run` rely on: the vector of tasks, moved to `tasksPtr` or not, has room for `n`
tasks and lies apart from the given stacks. -/
structure Allocated (L : TaskLayout) (rs : List Region) (tasksPtr : UInt64) (n : ℕ) :
    Prop where
  range : tasksPtr.toNat + n * L.size ≤ 2 ^ 64
  apart : ∀ r ∈ rs, (tasksRegion L tasksPtr n).Disjoint r

/-- The memory after `spawn(entry, _)`, with the stack vector allocated at `stack` and the vector
of tasks now at `tasksPtr`. -/
structure Spawned (L : TaskLayout) (k : Kernel) (entry stack tasksPtr : UInt64) (mem : Memory) :
    Prop where
  range : stack.toNat + TASK_STACK_SIZE.toNat < 2 ^ 64
  /-- The new stack is apart from the stacks that exist, and so is the vector of tasks. -/
  apart : ∀ r ∈ k.flowStacks, (taskStack stack).Disjoint r
  tasks : Allocated L (taskStack stack :: k.flowStacks) tasksPtr (k.tasks.length + 1)
  untouched : k.Untouched mem
  /-- The new stack holds the frame built by hand. -/
  frame : ∀ a, (taskStack stack).Word a →
    mem a = (buildFrame (zeroed k.mem stack) (stackTop stack) entry).1 a
  /-- The vector holds the old contexts, then the new one. -/
  contexts : ∀ i < k.tasks.length,
    mem (contextAddr L tasksPtr i) = k.mem (contextAddr L k.tasksPtr i)
  context : mem (contextAddr L tasksPtr k.tasks.length) =
    (buildFrame (zeroed k.mem stack) (stackTop stack) entry).2

/-- The memory after `run` has inserted the idle task. -/
structure Registered (L : TaskLayout) (k : Kernel) (tasksPtr : UInt64) (mem : Memory) : Prop where
  tasks : Allocated L k.flowStacks tasksPtr (k.tasks.length + 1)
  untouched : k.Untouched mem
  /-- The idle task comes first, and the contexts of the others are shifted by one. -/
  context : mem (contextAddr L tasksPtr 0) = 0
  contexts : ∀ i < k.tasks.length,
    mem (contextAddr L tasksPtr (i + 1)) = k.mem (contextAddr L k.tasksPtr i)

end Kernel

/-- What happens on the processor.  A task is named by its `id`. -/
inductive Event
  /-- The running code uses its registers, its stack and the heap. -/
  | compute
  /-- `interrupts::enable()`, as `kernel_main` calls it. -/
  | enable
  /-- A call of `without_interrupts`. -/
  | enter
  /-- The return of a call of `without_interrupts`; after a switch, that of the call inside
  `yield_now`, which then returns. -/
  | leave
  /-- The `hlt` of the loop of `run`. -/
  | hlt
  | init
  | spawn (id : ℕ) (entry : UInt64) (windowId : Option ℕ) (stack : UInt64)
  /-- The first part of `run`, entered with the given interrupt flag. -/
  | run (interruptFlag : Bool)
  /-- The task at an index is put to sleep (no function of the source does that). -/
  | sleep (i : ℕ)
  | currentWindowId (windowId : Option ℕ)
  /-- A call of `yield_now` that returns without switching. -/
  | yieldReturned
  /-- A call of `yield_now` that switches: from the task `out`, whose call of `switch_context` is
  made in the state `call` (with its return address in `rip`), to the task `into`, which control
  reaches in the state `arrival`. -/
  | yieldSwitched (out : ℕ) (call : Cpu) (into : ℕ) (arrival : Cpu)

open Kernel

/-- The steps of the kernel. -/
inductive Step (L : TaskLayout) : Kernel → Event → Kernel → Prop
  | compute {k : Kernel} {r : Region} {cpu : Cpu} {mem : Memory} :
      k.Active r → r.Holds cpu.rsp → k.Untouched mem →
      (∀ i < k.tasks.length,
        mem (contextAddr L k.tasksPtr i) = k.mem (contextAddr L k.tasksPtr i)) →
      Step L k .compute { k with cpu := cpu, mem := mem }
  | enable {k : Kernel} {r : Region} :
      k.Active r → k.remembered r = [] →
      Step L k .enable { k with interruptFlag := true }
  | enter {k : Kernel} {r : Region} :
      k.Active r → Step L k .enter (k.enterSection r)
  | leave {k k' : Kernel} {r : Region} :
      k.Active r → k.leaveSection r = some k' → Step L k .leave k'
  | hlt {k : Kernel} :
      k.schedulerRunning = true → k.Active k.kernelStack → k.remembered k.kernelStack = [] →
      Step L k .hlt k
  | init {k : Kernel} :
      k.scheduler = none → Step L k .init { k with scheduler := some Scheduler.init }
  | spawn {k : Kernel} {s : Scheduler} {entry stack tasksPtr : UInt64} {windowId : Option ℕ}
      {mem : Memory} :
      k.scheduler = some s → Spawned L k entry stack tasksPtr mem →
      Step L k (.spawn s.nextId entry windowId stack) (k.spawn s stack windowId tasksPtr mem)
  | run {k : Kernel} {s : Scheduler} {tasksPtr : UInt64} {mem : Memory} :
      k.scheduler = some s → k.schedulerRunning = false → k.remembered k.kernelStack = [] →
      Registered L k tasksPtr mem →
      Step L k (.run k.interruptFlag) (k.register s tasksPtr mem)
  | sleep {k : Kernel} {s : Scheduler} {i : ℕ} :
      k.scheduler = some s → (k.schedulerRunning = true → i ≠ s.current) →
      Step L k (.sleep i) { k with scheduler := some (s.setState i .Sleeping) }
  | currentWindowId {k : Kernel} :
      Step L k (.currentWindowId (k.scheduler.bind Scheduler.currentWindowId)) k
  -- the test of `SCHEDULER_RUNNING`
  | yieldEarly {k : Kernel} :
      k.schedulerRunning = false → Step L k .yieldReturned k
  -- the closure returns: no scheduler, no other task, or no other task that is not asleep
  | yieldReturned {k k' : Kernel} {r : Region} :
      k.schedulerRunning = true → k.Active r → k.scheduler.bind Scheduler.nextTask = none →
      (k.enterSection r).leaveSection r = some k' → Step L k .yieldReturned k'
  -- the call of `switch_context` needs room for its frame
  | yieldSwitched {k k' : Kernel} {s : Scheduler} {r : Region} {next : ℕ} {old new : Task} :
      k.schedulerRunning = true → k.Active r → r.lo + 56 ≤ k.cpu.rsp.toNat →
      k.scheduler = some s → s.nextTask = some next →
      s.tasks[s.current]? = some old → s.tasks[next]? = some new →
      k' = (k.enterSection r).switchTo L s next →
      Step L k (.yieldSwitched old.id k.cpu new.id k'.cpu) k'

/-- `kernel_main` before `task::init`. -/
structure Boot (k : Kernel) : Prop where
  scheduler : k.scheduler = none
  running : k.schedulerRunning = false
  stack : k.kernelStack.Holds k.cpu.rsp
  range : k.kernelStack.hi < 2 ^ 64
  remembered : k.remembered k.kernelStack = []

end ROs
