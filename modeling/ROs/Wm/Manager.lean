import ROs.Wm.Window
import ROs.Wm.Cursor
import Mathlib.Data.List.Forall2

/-!
# The window manager

`WindowManager` of `wm.rs` and the functions of the module over its two statics, the window
manager and the frame buffer.  The windows are listed from back to front.

Every operation returns `none` where the source would panic: on an arithmetic overflow, on
`copy_from_slice` between slices of different lengths, on a `clamp` to an empty interval.
-/

namespace ROs

abbrev TASKBAR_HEIGHT : ℕ := 28

/-- `WindowManager`. -/
structure WindowManager where
  windows : List WmWindow
  /-- The id of the focused window. -/
  focused : Option ℕ
  nextId : ℕ
  cursor : CursorState
  screenInfo : FrameBufferInfo
  taskbarHeight : ℕ
  /-- The height is set once and never changed. -/
  taskbarHeight_eq : taskbarHeight = TASKBAR_HEIGHT
  needsComposite : Bool
  /-- The back buffer of the screen. -/
  backBuf : Buf
  /-- The cached desktop background. -/
  bgCache : Buf

variable [BasicFonts]

/-! ### Drawing the screen -/

/-- The labels of the taskbar, from `lx` on. -/
def drawLabels (buf : Buf) (info : FrameBufferInfo) (tbY taskbarHeight : ℕ) (focused : Option ℕ)
    (lx : ℕ) : List WmWindow → Option Buf
  | [] => some buf
  | win :: windows => do
    let isFocused := focused = some win.id
    let c : Color := if isFocused then ⟨0xFF, 0xFF, 0xFF⟩ else ⟨0x88, 0x8C, 0x96⟩
    let buf ←
      if isFocused then
        let labelW := win.titleLen * FONT_WIDTH + 12
        fillRect buf info (lx - 4) (tbY + 2) labelW (taskbarHeight - 4) ⟨0x28, 0x32, 0x44⟩
      else
        some buf
    let buf ← drawText buf info lx (tbY + 6) win.titleStr c
    drawLabels buf info tbY taskbarHeight focused (lx + (win.titleLen * FONT_WIDTH + 16)) windows

/-- `draw_taskbar`.  Its subtractions do not underflow: the height is always `TASKBAR_HEIGHT`. -/
def drawTaskbar (buf : Buf) (info : FrameBufferInfo) (taskbarHeight : ℕ) (windows : List WmWindow)
    (focused : Option ℕ) : Option Buf := do
  let tbY := info.height - taskbarHeight
  let buf ← fillRect buf info 0 tbY info.width taskbarHeight ⟨0x1A, 0x1E, 0x28⟩
  let buf ← fillRect buf info 0 tbY info.width 1 ⟨0x33, 0x38, 0x44⟩
  let buf ← drawText buf info 8 (tbY + 6) ['r', '-', 'o', 's'] ⟨0xE0, 0xE4, 0xEC⟩
  let sepX := 8 + 4 * FONT_WIDTH + 6
  let buf ← fillRect buf info sepX (tbY + 4) 1 (taskbarHeight - 8) ⟨0x44, 0x48, 0x55⟩
  drawLabels buf info tbY taskbarHeight focused (sepX + 8) windows

omit [BasicFonts] in
/-- The body of the loop of `blit_window`. -/
def blitRow (fbBuf : Buf) (fbInfo : FrameBufferInfo) (win : WmWindow) (copyW row : ℕ) :
    Option Buf := do
  let bpp := fbInfo.bytesPerPixel
  let srcOffset ← usize (row * win.bufInfo.stride * bpp)
  let dstOffset ← usize (((win.y + row) * fbInfo.stride + win.x) * bpp)
  let bytes := copyW * bpp
  let srcEnd ← usize (srcOffset + bytes)
  let dstEnd ← usize (dstOffset + bytes)
  if srcEnd ≤ win.buf.size ∧ dstEnd ≤ fbBuf.size then do
    let src ← win.buf.slice srcOffset srcEnd
    fbBuf.copyFromSlice dstOffset dstEnd src
  else
    some fbBuf

omit [BasicFonts] in
/-- `blit_window`. -/
def blitWindow (fbBuf : Buf) (fbInfo : FrameBufferInfo) (win : WmWindow) : Option Buf :=
  let copyW := min win.width (fbInfo.width - win.x)
  let copyH := min win.height (fbInfo.height - win.y)
  (range 0 copyH).foldlM (fun fbBuf row => blitRow fbBuf fbInfo win copyW row) fbBuf

namespace WindowManager

omit [BasicFonts] in
/-- `WindowManager::new`. -/
def new (screenInfo : FrameBufferInfo) : Option WindowManager := do
  let bufSize ← usize (screenInfo.width * screenInfo.height * screenInfo.bytesPerPixel)
  let bgCache ← drawBackground (Array.replicate bufSize 0) screenInfo
  some {
    windows := []
    focused := none
    nextId := 0
    cursor := CursorState.new screenInfo.width screenInfo.height
    screenInfo
    taskbarHeight := TASKBAR_HEIGHT
    taskbarHeight_eq := rfl
    needsComposite := true
    backBuf := Array.replicate bufSize 0
    bgCache }

/-- The back buffer before the cursor is drawn on it: background, taskbar and windows. -/
def scene (self : WindowManager) (fbInfo : FrameBufferInfo) : Option Buf := do
  let backBuf ← self.backBuf.copyFromSlice 0 self.backBuf.size self.bgCache
  let backBuf ← drawTaskbar backBuf fbInfo self.taskbarHeight self.windows self.focused
  self.windows.foldlM (fun backBuf win => blitWindow backBuf fbInfo win) backBuf

/-- `WindowManager::composite`. -/
def composite (self : WindowManager) (fbBuf : Buf) (fbInfo : FrameBufferInfo) :
    Option (WindowManager × Buf) := do
  let backBuf ← self.scene fbInfo
  let cursor ← self.cursor.saveBackground backBuf fbInfo
  let backBuf ← cursor.draw backBuf fbInfo
  let cursor := { cursor with visible := true }
  let fbBuf ← fbBuf.copyFromSlice 0 fbBuf.size backBuf
  let windows := self.windows.map fun win => { win with dirty := false }
  some ({ self with windows, cursor, backBuf, needsComposite := false }, fbBuf)

/-! ### Windows -/

omit [BasicFonts] in
/-- `title_buf[..tlen].copy_from_slice(&title.as_bytes()[..tlen])` on an array of zeros. -/
def titleBuf (title : String) : Vector UInt8 MAX_TITLE :=
  Vector.ofFn fun i => title.toUTF8.data.getD i.val 0

/-- `WindowManager::create_window`. -/
def createWindow (self : WindowManager) (x y width height : ℕ) (title : String) (ownerTask : ℕ) :
    Option (WindowManager × ℕ) := do
  let id := self.nextId
  let bufInfo := { self.screenInfo with width, height, stride := width }
  let bufSize ← usize (width * height * bufInfo.bytesPerPixel)
  let win : WmWindow := {
    id, x, y, width, height
    title := titleBuf title
    titleLen := min title.toUTF8.size MAX_TITLE
    titleLen_le := Nat.min_le_right _ _
    buf := Array.replicate bufSize 0
    bufInfo
    console := none
    dirty := true
    ownerTask }
  let focused := self.focused = none ∨ self.focused = some id
  let win ← win.drawChrome focused
  some ({ self with
    nextId := id + 1
    windows := self.windows ++ [win]
    focused := if self.focused = none then some id else self.focused
    needsComposite := true }, id)

omit [BasicFonts] in
/-- The window with the given id is replaced by `f` of it: the use the source makes of
`window_mut` and of `iter_mut().find(..)`, which give the first such window. -/
def modifyWindow (f : WmWindow → Option WmWindow) (id : ℕ) : List WmWindow → Option (List WmWindow)
  | [] => some []
  | win :: windows =>
    if win.id = id then do some ((← f win) :: windows)
    else do some (win :: (← modifyWindow f id windows))

omit [BasicFonts] in
/-- A property that related windows share holds of all of them if it does of the first ones. -/
theorem forall_of_forall₂ {R : WmWindow → WmWindow → Prop} {P : WmWindow → Prop}
    {windows windows' : List WmWindow} (h : List.Forall₂ R windows windows')
    (hR : ∀ win win', P win → R win win' → P win') (hP : ∀ win ∈ windows, P win) :
    ∀ win ∈ windows', P win := by
  induction h with
  | nil => exact hP
  | cons hwin _ ih =>
    rw [List.forall_mem_cons] at hP ⊢
    exact ⟨hR _ _ hP.1 hwin, ih hP.2⟩

omit [BasicFonts] in
/-- Only windows with the id change, and only as `f` says. -/
theorem forall₂_of_modifyWindow {f : WmWindow → Option WmWindow} {id : ℕ}
    {windows windows' : List WmWindow} (h : modifyWindow f id windows = some windows') :
    List.Forall₂ (fun win win' => win' = win ∨ win.id = id ∧ f win = some win') windows windows' := by
  induction windows generalizing windows' with
  | nil =>
    cases h
    exact .nil
  | cons win windows ih =>
    rw [modifyWindow] at h
    split at h
    · rename_i hid
      obtain ⟨win', hwin, h⟩ := Option.bind_eq_some_iff.1 h
      cases h
      exact .cons (.inr ⟨hid, hwin⟩) (List.forall₂_same.2 fun _ _ => .inl rfl)
    · obtain ⟨windows₁, hrest, h⟩ := Option.bind_eq_some_iff.1 h
      cases h
      exact .cons (.inl rfl) (ih hrest)

omit [BasicFonts] in
/-- A property of windows that `f` keeps holds of all of them afterwards. -/
theorem forall_of_modifyWindow {f : WmWindow → Option WmWindow} {id : ℕ} {P : WmWindow → Prop}
    {windows windows' : List WmWindow} (h : modifyWindow f id windows = some windows')
    (hf : ∀ win win', P win → f win = some win' → P win') (hP : ∀ win ∈ windows, P win) :
    ∀ win ∈ windows', P win := by
  refine forall_of_forall₂ (forall₂_of_modifyWindow h) (fun win win' hwin hrel => ?_) hP
  rcases hrel with rfl | ⟨-, hrel⟩
  · exact hwin
  · exact hf _ _ hwin hrel

omit [BasicFonts] in
theorem exists_modifyWindow {f : WmWindow → Option WmWindow} (id : ℕ) {windows : List WmWindow}
    (hf : ∀ win ∈ windows, ∃ win', f win = some win') :
    ∃ windows', modifyWindow f id windows = some windows' := by
  induction windows with
  | nil => exact ⟨[], rfl⟩
  | cons win windows ih =>
    rw [List.forall_mem_cons] at hf
    obtain ⟨win', hwin⟩ := hf.1
    obtain ⟨windows', hrest⟩ := ih hf.2
    rw [modifyWindow, hwin, hrest]
    split
    · exact ⟨_, rfl⟩
    · exact ⟨_, rfl⟩

omit [BasicFonts] in
/-- `WindowManager::init_console`. -/
def initConsole (self : WindowManager) (winId : ℕ) : Option WindowManager := do
  let windows ← modifyWindow (fun win => do
    let content := win.contentRect
    let (console, buf) ← Console.new win.buf win.bufInfo content
    some { win with buf, console := some console }) winId self.windows
  some { self with windows }

omit [BasicFonts] in
/-- `WindowManager::mark_dirty`. -/
def markDirty (self : WindowManager) (id : ℕ) : Option WindowManager := do
  let windows ← modifyWindow (fun win => some { win with dirty := true }) id self.windows
  some { self with windows, needsComposite := true }

omit [BasicFonts] in
/-- The target window is moved to the end of the list: the first window with the id, if any. -/
def bringToFront (id : ℕ) : List WmWindow → List WmWindow
  | [] => []
  | win :: windows => if win.id = id then windows ++ [win] else win :: bringToFront id windows

omit [BasicFonts] in
theorem bringToFront_perm (id : ℕ) (windows : List WmWindow) :
    (bringToFront id windows).Perm windows := by
  induction windows with
  | nil => exact .nil
  | cons win windows ih =>
    rw [bringToFront]
    split
    · exact List.perm_append_singleton win windows
    · exact ih.cons win

/-- The chrome of a window is redrawn, and the window marked as dirty. -/
def redraw (focused : Bool) (id : ℕ) (windows : List WmWindow) : Option (List WmWindow) :=
  modifyWindow (fun win => do some { ← win.drawChrome focused with dirty := true }) id windows

/-- The window that had the focus, if any, is redrawn without it. -/
def unfocus (focused : Option ℕ) (windows : List WmWindow) : Option (List WmWindow) :=
  match focused with
  | some oldId => redraw false oldId windows
  | none => some windows

/-- `WindowManager::focus_window`. -/
def focusWindow (self : WindowManager) (id : ℕ) : Option WindowManager :=
  if self.focused = some id then
    some self
  else do
    let windows ← unfocus self.focused self.windows
    let windows ← redraw true id (bringToFront id windows)
    some { self with windows, focused := some id, needsComposite := true }

/-! ### The mouse -/

omit [BasicFonts] in
/-- The label of the taskbar that `mx` lies in, from `lx` on. -/
def labelAt (mx lx : ℕ) : List WmWindow → Option ℕ
  | [] => none
  | win :: windows =>
    let labelW := win.titleLen * FONT_WIDTH + 16
    if mx ≥ lx - 4 ∧ mx < lx + labelW then some win.id else labelAt mx (lx + labelW) windows

/-- `WindowManager::handle_taskbar_click`. -/
def handleTaskbarClick (self : WindowManager) (mx : ℕ) : Option WindowManager :=
  let sepX := 8 + 4 * FONT_WIDTH + 6 + 8
  match labelAt mx sepX self.windows with
  | some id => self.focusWindow id
  | none => some self

omit [BasicFonts] in
/-- The hit test of `handle_mouse`, over the windows from front to back. -/
def windowAt (mx my : ℕ) : List WmWindow → Option (Option ℕ)
  | [] => some none
  | win :: windows => do
    let hit ←
      if mx ≥ win.x then do
        if mx < (← usize (win.x + win.width)) then
          if my ≥ win.y then do some (decide (my < (← usize (win.y + win.height)))) else some false
        else some false
      else some false
    if hit then some (some win.id) else windowAt mx my windows

/-- What a left click does. -/
def handleClick (self : WindowManager) : Option WindowManager :=
  let mx := asUsize self.cursor.x
  let my := asUsize self.cursor.y
  let tbY := self.screenInfo.height - self.taskbarHeight
  if my ≥ tbY then do
    let self ← self.handleTaskbarClick mx
    some { self with needsComposite := true }
  else do
    match ← windowAt mx my self.windows.reverse with
    | some id => self.focusWindow id
    | none => some self

/-- `WindowManager::handle_mouse`. -/
def handleMouse (self : WindowManager) (event : MouseEvent) (fbBuf : Buf)
    (fbInfo : FrameBufferInfo) : Option (WindowManager × Buf) := do
  let fbBuf ← self.cursor.restoreBackground fbBuf fbInfo
  let cursor ← self.cursor.applyDelta event.dx event.dy
  let self := { self with cursor }
  let self ← (if event.left then self.handleClick else some self : Option WindowManager)
  if self.needsComposite then
    some (self, fbBuf)
  else do
    let cursor ← self.cursor.saveBackground fbBuf fbInfo
    let fbBuf ← cursor.draw fbBuf fbInfo
    some ({ self with cursor := { cursor with visible := true } }, fbBuf)

end WindowManager

end ROs
