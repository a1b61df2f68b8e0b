import ROs.System.Counter
import ROs.System.Input
import ROs.System.Regions
import ROs.Task.Scheduler

/-!
# The running system

What happens after `kernel_main` has called `task::run`: one processor executes the idle loop and the
three tasks, which hand it on to each other by `yield_now`, and interrupts arrive at any time.

Each flow of control is a program counter with the local variables that are live there (`IdlePc`,
`ShellPc`, `MemmapPc`, `CounterPc`).  A step of the flow that is executed (`System.run`) is one access
of a queue, one call of the window manager, or what the flow does by itself between two of them.  A
flow that is switched away from keeps its program counter: that its registers and its stack are those
it had is the subject of `ROs.Task.Resume`.

An interrupt (`System.interrupt`) runs its handler to the end and ends the `hlt` of the idle loop, if
that is what the processor executes.  Whether interrupts are enabled is not looked at: an interrupt is
possible before every step, so what holds in every run holds whatever the flag is.
-/

namespace ROs

/-! ### The flows of control -/

/-- The functions that run: `task::run` and the three `task_main`. -/
inductive Flow where
  | idle
  | shell
  | memmap
  | counter
  deriving Repr, DecidableEq

/-- The flow of control of a task.  `spawn` numbers the tasks, and `kernel_main` spawns the shell, the
memory map and the counter, in this order. -/
def Flow.ofTask : ℕ → Flow
  | 0 => .shell
  | 1 => .memmap
  | 2 => .counter
  | _ => .idle

/-- The loop of `task::run`. -/
inductive IdlePc where
  /-- In `try_read_event`. -/
  | reading
  /-- Before `handle_mouse`. -/
  | handling (event : MouseEvent)
  /-- Before the test of `needs_composite`. -/
  | checking
  /-- Before `composite`. -/
  | compositing
  | yielding
  /-- Before `hlt`. -/
  | halting
  /-- In `hlt`. -/
  | waiting
  deriving Repr, DecidableEq

/-- `task_main` of `shell.rs`. -/
inductive ShellPc where
  | entry
  /-- Before the loop, with the calls that are left. -/
  | starting (winId : UInt64) (ops : List Statics.Op) (result : Except Stop Line)
  /-- Before the test of `is_focused`. -/
  | polling (winId : UInt64) (line : Line)
  /-- In `try_read_key`. -/
  | reading (winId : UInt64) (line : Line)
  /-- With a key, and the calls that are left. -/
  | handling (winId : UInt64) (ops : List Statics.Op) (result : Except Stop Line)
  | yielding (winId : UInt64) (line : Line)
  /-- In the loop of `cmd_halt`. -/
  | halted

/-- `task_main` of `memmap.rs`. -/
inductive MemmapPc where
  | entry
  /-- Before `draw_memmap`. -/
  | drawing (winId : UInt64)
  /-- Before `mark_dirty`. -/
  | marking (winId : UInt64)
  | yielding
  deriving Repr, DecidableEq

/-- `task_main` of `counter.rs`. -/
inductive CounterPc where
  | entry
  /-- Before the loop, with the calls that are left. -/
  | starting (winId : UInt64) (ops : List Statics.Op) (result : Except Stop Unit)
  /-- Before `ticks`. -/
  | polling (winId : UInt64) (lastDisplayed : UInt64)
  /-- In a redraw, with the calls that are left. -/
  | drawing (winId : UInt64) (ops : List Statics.Op) (result : Except Stop Unit)
      (lastDisplayed : UInt64)
  | yielding (winId : UInt64) (lastDisplayed : UInt64)

/-- The statics of all modules, and where each flow of control is. -/
structure System (D : KeyDecoder) where
  /-- `WM` and `FB_STATE`. -/
  statics : Statics
  /-- `SCHEDULER`. -/
  scheduler : Scheduler
  input : Input
  /-- `KEYBOARD`. -/
  keyboard : D.Keyboard
  /-- `MEM_REGIONS`. -/
  memRegions : MemRegions
  idle : IdlePc
  shell : ShellPc
  memmap : MemmapPc
  counter : CounterPc

variable [BasicFonts]

namespace Statics

omit [BasicFonts] in
/-- `is_focused`. -/
def isFocused (self : Statics) (winId : ℕ) : Bool :=
  match self.wm with
  | some wm => wm.focused = some winId
  | none => false

omit [BasicFonts] in
/-- `with_wm(|wm| wm.needs_composite()).unwrap_or(false)`. -/
def needsComposite (self : Statics) : Bool :=
  match self.wm with
  | some wm => wm.needsComposite
  | none => false

end Statics

namespace System

variable {D : KeyDecoder}

/-- What a step does, as the properties of runs need it. -/
inductive Event where
  /-- An interrupt. -/
  | handled (e : Handled)
  /-- An access of the scancode queue by the shell, and the key it gets from it. -/
  | scancode (e : Fifo.Event UInt8) (key : Option DecodedKey)
  /-- An access of the queue of mouse events by the idle loop. -/
  | mouse (e : Fifo.Event MouseEvent)
  /-- A call of `handle_mouse`. -/
  | handleMouse (event : MouseEvent)
  /-- Another call of the window manager. -/
  | call (op : Statics.Op)
  | drawMemmap (winId : UInt64)
  /-- The counter reads the number of ticks; a redraw is due, or not. -/
  | counted (ticks : UInt64) (due : Bool)
  /-- A call of `yield_now`. -/
  | yield
  /-- Nothing that is shared. -/
  | internal

omit [BasicFonts] in
/-- The flow of control that the processor executes. -/
def flow (self : System D) : Flow :=
  match self.scheduler.tasks[self.scheduler.current]? with
  | some t => Flow.ofTask t.id
  | none => .idle

omit [BasicFonts] in
/-- `current_window_id().unwrap_or(0)`. -/
def currentWindow (self : System D) : UInt64 :=
  UInt64.ofNat (self.scheduler.currentWindowId.getD 0)

omit [BasicFonts] in
/-- `yield_now`, `SCHEDULER_RUNNING` being set: the processor goes on with another flow, if another
task is ready. -/
def yieldNow (self : System D) : System D :=
  match self.scheduler.nextTask with
  | some next => { self with scheduler := self.scheduler.dispatch next }
  | none => self

/-- One step of the idle loop. -/
def runIdle (self : System D) : Option (Event × System D) :=
  match self.idle with
  | .reading => do
    let (e, mouseEvents) ← self.input.mouseEvents.popStep
    let self := { self with input := { self.input with mouseEvents } }
    match e with
    | .popped event => some (.mouse e, { self with idle := .handling event })
    | .empty => some (.mouse e, { self with idle := .checking })
    | _ => some (.mouse e, self)
  | .handling event => do
    let statics ← self.statics.perform (.handleMouse event)
    some (.handleMouse event, { self with statics, idle := .reading })
  | .checking =>
    if self.statics.needsComposite then
      some (.internal, { self with idle := .compositing })
    else
      some (.internal, { self with idle := .yielding })
  | .compositing => do
    let statics ← self.statics.perform .composite
    some (.call .composite, { self with statics, idle := .yielding })
  | .yielding => some (.yield, { self with idle := .halting }.yieldNow)
  | .halting => some (.internal, { self with idle := .waiting })
  | .waiting => some (.internal, self)

/-- One step of the shell. -/
def runShell (self : System D) : Option (Event × System D) :=
  match self.shell with
  | .entry =>
    let winId := self.currentWindow
    let x := Shell.start winId
    some (.internal, { self with shell := .starting winId x.calls x.result })
  | .starting winId (op :: ops) result => do
    let statics ← self.statics.perform op
    some (.call op, { self with statics, shell := .starting winId ops result })
  | .starting winId [] (.ok line) => some (.internal, { self with shell := .polling winId line })
  | .polling winId line =>
    if self.statics.isFocused winId.toNat then
      some (.internal, { self with shell := .reading winId line })
    else
      some (.internal, { self with shell := .yielding winId line })
  | .reading winId line => do
    let (e, scancodes) ← self.input.scancodes.popStep
    let self := { self with input := { self.input with scancodes } }
    match e with
    | .popped scancode =>
      match D.receive self.keyboard scancode with
      | (keyboard, some key) =>
        let x := Shell.handleKey winId key line
        some (.scancode e (some key),
          { self with keyboard, shell := .handling winId x.calls x.result })
      | (keyboard, none) => some (.scancode e none, { self with keyboard })
    | .empty => some (.scancode e none, { self with shell := .yielding winId line })
    | _ => some (.scancode e none, self)
  | .handling winId (op :: ops) result => do
    let statics ← self.statics.perform op
    some (.call op, { self with statics, shell := .handling winId ops result })
  | .handling winId [] (.ok line) => some (.internal, { self with shell := .yielding winId line })
  | .starting _ [] (.error .halt) | .handling _ [] (.error .halt) =>
    some (.internal, { self with shell := .halted })
  | .starting _ [] (.error .panic) | .handling _ [] (.error .panic) => none
  | .yielding winId line => some (.yield, { self with shell := .polling winId line }.yieldNow)
  | .halted => some (.internal, self)

/-- One step of the memory map. -/
def runMemmap (self : System D) : Option (Event × System D) :=
  match self.memmap with
  | .entry => some (.internal, { self with memmap := .drawing self.currentWindow })
  | .drawing winId => do
    let statics ← self.statics.drawMemmap winId.toNat self.memRegions
    some (.drawMemmap winId, { self with statics, memmap := .marking winId })
  | .marking winId => do
    let statics ← self.statics.perform (.markDirty winId)
    some (.call (.markDirty winId), { self with statics, memmap := .yielding })
  | .yielding => some (.yield, self.yieldNow)

/-- One step of the counter. -/
def runCounter (self : System D) : Option (Event × System D) :=
  match self.counter with
  | .entry =>
    let winId := self.currentWindow
    let x := Counter.start winId
    some (.internal, { self with counter := .starting winId x.calls x.result })
  | .starting winId (op :: ops) result => do
    let statics ← self.statics.perform op
    some (.call op, { self with statics, counter := .starting winId ops result })
  | .starting winId [] (.ok ()) => some (.internal, { self with counter := .polling winId 0 })
  | .polling winId lastDisplayed =>
    let ticks := self.input.tickCount
    if Counter.due ticks lastDisplayed then
      let x := Counter.redraw winId ticks
      some (.counted ticks true, { self with counter := .drawing winId x.calls x.result ticks })
    else
      some (.counted ticks false, { self with counter := .yielding winId lastDisplayed })
  | .drawing winId (op :: ops) result lastDisplayed => do
    let statics ← self.statics.perform op
    some (.call op, { self with statics, counter := .drawing winId ops result lastDisplayed })
  | .drawing winId [] (.ok ()) lastDisplayed =>
    some (.internal, { self with counter := .yielding winId lastDisplayed })
  | .starting _ [] (.error _) | .drawing _ [] (.error _) _ => none
  | .yielding winId lastDisplayed =>
    some (.yield, { self with counter := .polling winId lastDisplayed }.yieldNow)

/-- One step of the flow of control that the processor executes. -/
def run (self : System D) : Option (Event × System D) :=
  match self.flow with
  | .idle => self.runIdle
  | .shell => self.runShell
  | .memmap => self.runMemmap
  | .counter => self.runCounter

omit [BasicFonts] in
/-- An interrupt. -/
def interrupt (self : System D) (i : Interrupt) : Option (Event × System D) := do
  let (e, input) ← self.input.handle i
  let idle := if self.flow = .idle ∧ self.idle = .waiting then .reading else self.idle
  some (.handled e, { self with input, idle })

/-- The steps of the system. -/
inductive Step : System D → Event → System D → Prop
  | run {s s' : System D} {e : Event} : s.run = some (e, s') → Step s e s'
  | interrupt {s s' : System D} {e : Event} (i : Interrupt) : s.interrupt i = some (e, s') →
      Step s e s'

end System

end ROs
