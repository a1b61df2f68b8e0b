import ROs.Wm.Focus

/-!
# The statics of the window manager

The functions of `wm.rs` that other modules call.  They work on two statics, the window manager
`WM` and the frame buffer `FB_STATE`, each behind a lock that is held for the whole call, so a
call is one step of the state (`Statics.perform`).
-/

namespace ROs

/-- `FrameBufferState`. -/
structure FrameBufferState where
  buf : Buf
  info : FrameBufferInfo

/-- `WM` and `FB_STATE`. -/
structure Statics where
  wm : Option WindowManager
  fb : Option FrameBufferState

namespace Statics

variable [BasicFonts] {R : Type*}

omit [BasicFonts] in
/-- `init`. -/
def init (self : Statics) : Option Statics :=
  match self.fb with
  | some fb => do some { self with wm := some (← WindowManager.new fb.info) }
  | none => some self

omit [BasicFonts] in
/-- `with_wm`. -/
def withWm (self : Statics) (f : WindowManager → Option (WindowManager × R)) :
    Option (Statics × Option R) :=
  match self.wm with
  | some wm => do
    let (wm, r) ← f wm
    some ({ self with wm := some wm }, some r)
  | none => some (self, none)

omit [BasicFonts] in
/-- `with_wm` for an operation without a result. -/
def updateWm (self : Statics) (f : WindowManager → Option WindowManager) : Option Statics := do
  let (self, _) ← self.withWm fun wm => do some (← f wm, ())
  some self

/-- `create_window`. -/
def createWindow (self : Statics) (x y width height : ℕ) (title : String) (ownerTask : ℕ) :
    Option (Statics × ℕ) := do
  let (self, id) ← self.withWm fun wm => wm.createWindow x y width height title ownerTask
  some (self, id.getD 0)

omit [BasicFonts] in
/-- `init_console`. -/
def initConsole (self : Statics) (winId : ℕ) : Option Statics :=
  self.updateWm fun wm => wm.initConsole winId

omit [BasicFonts] in
/-- `mark_dirty`. -/
def markDirty (self : Statics) (winId : ℕ) : Option Statics :=
  self.updateWm fun wm => wm.markDirty winId

omit [BasicFonts] in
/-- What the four console functions share: `f` of the console of the window, if it has one. -/
def updateConsole (self : Statics) (winId : ℕ)
    (f : Console → Buf → FrameBufferInfo → Option (Console × Buf)) : Option Statics :=
  self.updateWm fun wm => do
    let windows ← WindowManager.modifyWindow (fun win =>
      match win.console with
      | some console => do
        let (console, buf) ← f console win.buf win.bufInfo
        some { win with buf, console := some console, dirty := true }
      | none => some win) winId wm.windows
    some { wm with windows, needsComposite := true }

/-- `console_write`. -/
def consoleWrite (self : Statics) (winId : ℕ) (s : String) : Option Statics :=
  self.updateConsole winId fun console buf info => console.writeStr buf info s.toList

omit [BasicFonts] in
/-- `console_show_cursor`. -/
def consoleShowCursor (self : Statics) (winId : ℕ) : Option Statics :=
  self.updateConsole winId Console.drawCursor

omit [BasicFonts] in
/-- `console_hide_cursor`. -/
def consoleHideCursor (self : Statics) (winId : ℕ) : Option Statics :=
  self.updateConsole winId Console.eraseCursor

omit [BasicFonts] in
/-- `console_clear`. -/
def consoleClear (self : Statics) (winId : ℕ) : Option Statics :=
  self.updateConsole winId Console.clear

/-- `handle_mouse`. -/
def handleMouse (self : Statics) (event : MouseEvent) : Option Statics :=
  match self.wm, self.fb with
  | some wm, some fb => do
    let (wm, buf) ← wm.handleMouse event fb.buf fb.info
    let (wm, buf) ←
      (if wm.needsComposite then wm.composite buf fb.info else some (wm, buf) :
        Option (WindowManager × Buf))
    some { wm := some wm, fb := some { fb with buf } }
  | _, _ => some self

/-- `composite`. -/
def composite (self : Statics) : Option Statics :=
  match self.wm, self.fb with
  | some wm, some fb => do
    let (wm, buf) ← wm.composite fb.buf fb.info
    some { wm := some wm, fb := some { fb with buf } }
  | _, _ => some self

/-! ### Runs -/

/-- The operations of the module. -/
inductive Op where
  | createWindow (x y width height : UInt64) (title : String) (ownerTask : UInt64)
  | initConsole (winId : UInt64)
  | consoleWrite (winId : UInt64) (s : String)
  | consoleShowCursor (winId : UInt64)
  | consoleHideCursor (winId : UInt64)
  | consoleClear (winId : UInt64)
  | markDirty (winId : UInt64)
  | handleMouse (event : MouseEvent)
  | composite
  deriving Repr, DecidableEq

/-- One call of the module. -/
def perform (self : Statics) : Op → Option Statics
  | .createWindow x y width height title ownerTask => do
    let (self, _) ←
      self.createWindow x.toNat y.toNat width.toNat height.toNat title ownerTask.toNat
    some self
  | .initConsole winId => self.initConsole winId.toNat
  | .consoleWrite winId s => self.consoleWrite winId.toNat s
  | .consoleShowCursor winId => self.consoleShowCursor winId.toNat
  | .consoleHideCursor winId => self.consoleHideCursor winId.toNat
  | .consoleClear winId => self.consoleClear winId.toNat
  | .markDirty winId => self.markDirty winId.toNat
  | .handleMouse event => self.handleMouse event
  | .composite => self.composite

/-! ### One lemma for each way of changing the statics -/

variable {wm : WindowManager} {fb : Option FrameBufferState} {fbs : FrameBufferState} {st : Statics}

omit [BasicFonts] in
theorem init_eq_some (h : (Statics.mk none (some fbs)).init = some st) :
    ∃ wm, WindowManager.new fbs.info = some wm ∧ st = ⟨some wm, some fbs⟩ := by
  obtain ⟨wm, hnew, h⟩ := Option.bind_eq_some_iff.1 h
  cases h
  exact ⟨wm, hnew, rfl⟩

omit [BasicFonts] in
theorem init_of_eq (fbs : FrameBufferState) (h : WindowManager.new fbs.info = some wm) :
    (Statics.mk none (some fbs)).init = some ⟨some wm, some fbs⟩ := by
  simp only [init, h, Option.bind_eq_bind, Option.bind_some]

omit [BasicFonts] in
theorem updateWm_eq_some {f : WindowManager → Option WindowManager}
    (h : (Statics.mk (some wm) fb).updateWm f = some st) :
    ∃ wm', f wm = some wm' ∧ st = ⟨some wm', fb⟩ := by
  obtain ⟨⟨st', r⟩, hwith, h⟩ := Option.bind_eq_some_iff.1 h
  obtain ⟨⟨wm', u⟩, hf, hwith⟩ := Option.bind_eq_some_iff.1 hwith
  obtain ⟨wm'', hwm, hu⟩ := Option.bind_eq_some_iff.1 hf
  cases hu
  cases hwith
  cases h
  exact ⟨wm', hwm, rfl⟩

omit [BasicFonts] in
theorem updateWm_of_eq {f : WindowManager → Option WindowManager} {wm' : WindowManager}
    (h : f wm = some wm') : (Statics.mk (some wm) fb).updateWm f = some ⟨some wm', fb⟩ := by
  simp only [updateWm, withWm, h, Option.bind_eq_bind, Option.bind_some]

omit [BasicFonts] in
/-- `updateConsole` changes the console and the pixels of one window, as `f` says. -/
theorem exists_updateConsole_eq (st : Statics) (winId : ℕ)
    (f : Console → Buf → FrameBufferInfo → Option (Console × Buf)) :
    ∃ F : WmWindow → Option WmWindow,
      (∀ win win', F win = some win' ↔ win.console = none ∧ win' = win ∨
        ∃ console console' buf, win.console = some console ∧
          f console win.buf win.bufInfo = some (console', buf) ∧
            win' = { win with buf, console := some console', dirty := true }) ∧
      st.updateConsole winId f = st.updateWm fun wm =>
        (WindowManager.modifyWindow F winId wm.windows).bind fun windows =>
          some { wm with windows, needsComposite := true } := by
  refine ⟨_, fun win win' => ?_, rfl⟩
  cases hconsole : win.console with
  | none =>
    refine ⟨fun h => .inl ⟨rfl, (Option.some.inj h).symm⟩, ?_⟩
    rintro (⟨-, rfl⟩ | ⟨console, -, -, hsome, -⟩)
    · rfl
    · cases hsome
  | some console =>
    constructor
    · intro h
      obtain ⟨⟨console', buf⟩, hcall, h⟩ := Option.bind_eq_some_iff.1 h
      exact .inr ⟨console, console', buf, rfl, hcall, (Option.some.inj h).symm⟩
    · rintro (⟨hnone, -⟩ | ⟨_, console', buf, hsome, hcall, rfl⟩)
      · cases hnone
      · cases hsome
        exact Option.bind_eq_some_iff.2 ⟨_, hcall, rfl⟩

theorem perform_createWindow_eq_some {x y width height ownerTask : UInt64} {title : String}
    (h : (Statics.mk (some wm) fb).perform (.createWindow x y width height title ownerTask) =
      some st) :
    ∃ wm' id, wm.createWindow x.toNat y.toNat width.toNat height.toNat title ownerTask.toNat =
      some (wm', id) ∧ st = ⟨some wm', fb⟩ := by
  obtain ⟨⟨st', id⟩, hcreate, h⟩ := Option.bind_eq_some_iff.1 h
  obtain ⟨⟨st'', r⟩, hwith, hcreate⟩ := Option.bind_eq_some_iff.1 hcreate
  obtain ⟨⟨wm', id'⟩, hf, hwith⟩ := Option.bind_eq_some_iff.1 hwith
  cases hwith
  cases hcreate
  cases h
  exact ⟨wm', id', hf, rfl⟩

theorem perform_createWindow_of_eq {x y width height ownerTask : UInt64} {title : String}
    {wm' : WindowManager} {id : ℕ} (h : wm.createWindow x.toNat y.toNat width.toNat height.toNat
      title ownerTask.toNat = some (wm', id)) :
    (Statics.mk (some wm) fb).perform (.createWindow x y width height title ownerTask) =
      some ⟨some wm', fb⟩ := by
  simp only [perform, createWindow, withWm, h, Option.bind_eq_bind, Option.bind_some]

/-- The mouse handler of the module composites when it has to. -/
theorem handleMouse_eq_some {event : MouseEvent}
    (h : (Statics.mk (some wm) (some fbs)).handleMouse event = some st) :
    ∃ wm₁ buf₁ wm' buf', wm.handleMouse event fbs.buf fbs.info = some (wm₁, buf₁) ∧
      st = ⟨some wm', some { fbs with buf := buf' }⟩ ∧
      (wm₁.needsComposite = true ∧ wm₁.composite buf₁ fbs.info = some (wm', buf') ∨
        wm₁.needsComposite = false ∧ wm' = wm₁ ∧ buf' = buf₁) := by
  obtain ⟨⟨wm₁, buf₁⟩, hmouse, h⟩ := Option.bind_eq_some_iff.1 h
  obtain ⟨⟨wm', buf'⟩, hcomp, h⟩ := Option.bind_eq_some_iff.1 h
  cases h
  refine ⟨wm₁, buf₁, wm', buf', hmouse, rfl, ?_⟩
  cases hneeds : wm₁.needsComposite with
  | true =>
    rw [hneeds] at hcomp
    exact .inl ⟨rfl, hcomp⟩
  | false =>
    rw [hneeds] at hcomp
    cases hcomp
    exact .inr ⟨rfl, rfl, rfl⟩

theorem handleMouse_of_composite {event : MouseEvent} {wm₁ wm' : WindowManager} {buf₁ buf' : Buf}
    (hmouse : wm.handleMouse event fbs.buf fbs.info = some (wm₁, buf₁))
    (hneeds : wm₁.needsComposite = true)
    (hcomp : wm₁.composite buf₁ fbs.info = some (wm', buf')) :
    (Statics.mk (some wm) (some fbs)).handleMouse event =
      some ⟨some wm', some { fbs with buf := buf' }⟩ := by
  simp only [handleMouse, hmouse, hneeds, hcomp, Option.bind_eq_bind, Option.bind_some, if_true]

theorem handleMouse_of_fast {event : MouseEvent} {wm' : WindowManager} {buf' : Buf}
    (hmouse : wm.handleMouse event fbs.buf fbs.info = some (wm', buf'))
    (hneeds : wm'.needsComposite = false) :
    (Statics.mk (some wm) (some fbs)).handleMouse event =
      some ⟨some wm', some { fbs with buf := buf' }⟩ := by
  simp only [handleMouse, hmouse, hneeds, Option.bind_eq_bind, Option.bind_some, Bool.false_eq_true,
    if_false]

theorem perform_composite_of_eq (fbs : FrameBufferState) {wm' : WindowManager} {buf' : Buf}
    (h : wm.composite fbs.buf fbs.info = some (wm', buf')) :
    (Statics.mk (some wm) (some fbs)).perform .composite =
      some ⟨some wm', some { fbs with buf := buf' }⟩ := by
  simp only [perform, composite, h, Option.bind_eq_bind, Option.bind_some]

theorem composite_eq_some (h : (Statics.mk (some wm) (some fbs)).composite = some st) :
    ∃ wm' buf', wm.composite fbs.buf fbs.info = some (wm', buf') ∧
      st = ⟨some wm', some { fbs with buf := buf' }⟩ := by
  obtain ⟨⟨wm', buf'⟩, hcomp, h⟩ := Option.bind_eq_some_iff.1 h
  cases h
  exact ⟨wm', buf', hcomp, rfl⟩

end Statics

end ROs
