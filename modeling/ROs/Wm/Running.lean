import ROs.Wm.Hosts
import ROs.Wm.Stride

/-!
# The window manager while the system runs

`WindowManager.Running` is what every call of `wm.rs` finds and leaves: the windows are the created
ones, the buffers have the length of the frame buffer, no sum of a position and a size overflows, the
cursor is on the screen, and the screen is clean unless a composite is pending.

Under it the calls that write no text never panic (`Running.exists_markDirty`,
`Running.exists_handleMouse`, `Running.exists_composite`, `Running.exists_createWindow`,
`Running.exists_initConsole`), nor does a call for the console of a window that hosts a grid
(`Running.exists_call`).

* `Statics.grid_of_interleaving` : **in a run of the window manager, whatever the other tasks and the
  mouse do in between, a console shows the grid that its own calls alone produce.**
-/

namespace ROs

variable [BasicFonts] {info : FrameBufferInfo} {win win' : WmWindow}
  {windows windows' : List WmWindow}

/-- A frame buffer whose lines have no padding, on a screen small enough for the arithmetic of the
background gradient and of the cursor. -/
structure BootScreen (info : FrameBufferInfo) (fb : Buf) : Prop extends BootFramebuffer info fb where
  stride_eq : info.stride = info.width
  /-- One movement of the mouse does not leave `i32`. -/
  width_le : info.width ≤ 2 ^ 31 - 2 ^ 15
  /-- `i * 255` is a `u32` for every line `i`. -/
  height_le : info.height ≤ 16843009

namespace WmWindow

/-- The window ends within `usize`, and so do the offsets of its visible rows. -/
structure Bounded (info : FrameBufferInfo) (win : WmWindow) : Prop where
  right : win.x + win.width ≤ USIZE_MAX
  bottom : win.y + win.height ≤ USIZE_MAX
  offsetsFit : win.OffsetsFit info

omit [BasicFonts] in
theorem bounded_of_frame_eq (h : win'.frame = win.frame) (hb : win.Bounded info) :
    win'.Bounded info := by
  have hframe : win'.frame.Bounded info := h ▸ ⟨hb.right, hb.bottom, hb.offsetsFit⟩
  exact ⟨hframe.right, hframe.bottom, hframe.offsetsFit⟩

theorem chromeStable_bounded : ChromeStable (Bounded info) := by
  intro win win' focused hb h
  obtain ⟨buf, rfl⟩ := drawChrome_eq_some h
  exact @bounded_of_frame_eq info win _ rfl hb

end WmWindow

namespace WindowManager

/-! ### The invariant -/

variable {wm wm' : WindowManager} {fb fb' : Buf} {created : List WmWindow}

/-- What holds between two calls, `created` being the frames of the windows created so far. -/
structure Running (info : FrameBufferInfo) (created : List WmWindow) (wm : WindowManager)
    (fb : Buf) : Prop where
  session : Session.Inv info ⟨wm, created⟩
  coherent : Coherent info wm fb
  bounded : ∀ win ∈ wm.windows, win.Bounded info
  backBuf_size : wm.backBuf.size = info.width * info.height * info.bytesPerPixel
  bgCache_size : wm.bgCache.size = info.width * info.height * info.bytesPerPixel
  fb_size : fb.size = info.width * info.height * info.bytesPerPixel
  inside : wm.cursor.Inside
  screenWidth_eq : wm.cursor.screenWidth = asI32 info.width
  screenHeight_eq : wm.cursor.screenHeight = asI32 info.height

theorem Running.tracked (h : Running info created wm fb) : Statics.Tracked info created wm :=
  ⟨h.session, h.coherent.valid⟩

/-- The invariant is kept by what keeps the desktop, the lengths of the buffers and coherence. -/
theorem Running.congr (h : Running info created wm fb) (hd : SameDesktop wm wm')
    (hc : Coherent info wm' fb') (hback : wm'.backBuf.size = wm.backBuf.size)
    (hcache : wm'.bgCache.size = wm.bgCache.size) (hfb : fb'.size = fb.size) :
    Running info created wm' fb' where
  session := h.session.congr rfl hd.frames hd.screenInfo hd.nextId hd.focused
  coherent := hc
  bounded win hwin := by
    obtain ⟨w, hw, hframe⟩ := List.mem_map.1
      (hd.frames ▸ List.mem_map_of_mem (f := WmWindow.frame) hwin)
    exact WmWindow.bounded_of_frame_eq hframe.symm (h.bounded w hw)
  backBuf_size := hback.trans h.backBuf_size
  bgCache_size := hcache.trans h.bgCache_size
  fb_size := hfb.trans h.fb_size
  inside := by
    obtain ⟨h1, h2, h3, h4, h5, h6⟩ := h.inside
    refine ⟨?_, ?_, ?_, ?_, ?_, ?_⟩
    · rw [hd.x]
      exact h1
    · rw [hd.x, hd.screenWidth]
      exact h2
    · rw [hd.y]
      exact h3
    · rw [hd.y, hd.screenHeight]
      exact h4
    · rw [hd.screenWidth]
      exact h5
    · rw [hd.screenHeight]
      exact h6
  screenWidth_eq := hd.screenWidth.trans h.screenWidth_eq
  screenHeight_eq := hd.screenHeight.trans h.screenHeight_eq

/-! ### The calls -/

variable {st : Statics}

/-- Windows that are rewritten in their places. -/
theorem Running.rewrite {target : Option ℕ} {needsComposite : Bool}
    (h : Running info created wm fb)
    (hrel : List.Forall₂ (WmWindow.Rewritten target) wm.windows windows)
    (hclean : needsComposite = false →
      ∃ backBuf, Clean info { wm with windows, needsComposite } fb backBuf) :
    Running info created { wm with windows, needsComposite } fb :=
  h.congr (sameDesktop_of_rewritten wm needsComposite hrel)
    ⟨h.coherent.screenInfo_eq, valid_of_rewritten hrel h.coherent.valid, h.coherent.holds, hclean⟩
    rfl rfl rfl

/-- **A function of the console** that succeeds. -/
theorem Running.updateConsole (h : Running info created wm fb) {winId : ℕ}
    {f : Console → Buf → FrameBufferInfo → Option (Console × Buf)} (hf : Console.KeepsSize f)
    (hst : (Statics.mk (some wm) (some ⟨fb, info⟩)).updateConsole winId f = some st) :
    ∃ wm', st = ⟨some wm', some ⟨fb, info⟩⟩ ∧ Running info created wm' fb ∧ SameDesktop wm wm' ∧
      KeepsText (some winId) wm.windows wm'.windows := by
  obtain ⟨windows, rfl, hrel⟩ := updateConsole_eq_some hf hst
  exact ⟨_, rfl, h.rewrite hrel nofun, sameDesktop_of_rewritten wm true hrel,
    keepsText_of_rewritten hrel⟩

/-- **`mark_dirty`** never fails. -/
theorem Running.exists_markDirty (h : Running info created wm fb) (winId : ℕ) :
    ∃ wm', (Statics.mk (some wm) (some ⟨fb, info⟩)).markDirty winId =
        some ⟨some wm', some ⟨fb, info⟩⟩ ∧
      Running info created wm' fb ∧ SameDesktop wm wm' ∧
        KeepsText none wm.windows wm'.windows := by
  obtain ⟨wm', hmark⟩ : ∃ wm', wm.markDirty winId = some wm' := by
    obtain ⟨windows, hmodify⟩ := exists_modifyWindow (f := fun win => some { win with dirty := true })
      winId fun win (_ : win ∈ wm.windows) => ⟨_, rfl⟩
    exact ⟨_, Option.bind_eq_some_iff.2 ⟨windows, hmodify, rfl⟩⟩
  obtain ⟨windows, rfl, hrel⟩ := markDirty_eq_some hmark
  exact ⟨_, Statics.updateWm_of_eq hmark, h.rewrite hrel nofun, sameDesktop_of_rewritten wm true hrel,
    keepsText_of_rewritten hrel⟩

/-- **`composite`** never fails, and leaves no composite pending. -/
theorem Running.exists_composite (hf : info.Fits) (h : Running info created wm fb) :
    ∃ wm' fb', wm.composite fb info = some (wm', fb') ∧ Running info created wm' fb' ∧
      SameDesktop wm wm' ∧ KeepsText none wm.windows wm'.windows ∧ wm'.needsComposite = false := by
  obtain ⟨savedBg, fb', hcomp, hsize⟩ := exists_composite_of_valid wm fb hf
    (h.backBuf_size.trans h.bgCache_size.symm) h.coherent.holds h.coherent.valid
    (fun win hwin => (h.bounded win hwin).offsetsFit) h.inside.addressable
    (h.fb_size.trans h.bgCache_size.symm)
  have hrel := rewritten_composited wm savedBg fb'
  have hsame : SameDesktop wm (wm.composited savedBg fb') :=
    ⟨map_frame_of_rewritten hrel, rfl, rfl, rfl, rfl, rfl, rfl, rfl⟩
  have hcoherent := Statics.coherent_of_composite hf h.coherent.screenInfo_eq h.coherent.valid
    h.coherent.holds hcomp
  exact ⟨_, fb', hcomp, h.congr hsame hcoherent
    (hsize.trans (h.bgCache_size.trans h.backBuf_size.symm)) rfl
    (hsize.trans (h.bgCache_size.trans h.fb_size.symm)), hsame, keepsText_of_rewritten hrel, rfl⟩

/-- **A mouse event** of the window manager never fails. -/
theorem Running.exists_mouse (hf : info.Fits) (hw : info.width ≤ 2 ^ 31 - 2 ^ 15)
    (hh : info.height ≤ 16843009) (h : Running info created wm fb) (event : MouseEvent) :
    ∃ wm' fb', wm.handleMouse event fb info = some (wm', fb') ∧ Running info created wm' fb' ∧
      KeepsText none wm.windows wm'.windows := by
  have hscreenWidth : wm.cursor.screenWidth ≤ 2 ^ 31 - 2 ^ 15 := by
    rw [h.screenWidth_eq]
    exact Int.le_trans (asI32_le _) (by omega)
  have hscreenHeight : wm.cursor.screenHeight ≤ 2 ^ 31 - 2 ^ 15 := by
    rw [h.screenHeight_eq]
    exact Int.le_trans (asI32_le _) (by omega)
  obtain ⟨wm', fb', hmouse, hsize⟩ := WindowManager.exists_handleMouse hf h.inside hscreenWidth
    hscreenHeight (fun win hwin => (h.coherent.valid win hwin).fits hf.formatFits)
    (fun win hwin => ⟨(h.bounded win hwin).right, (h.bounded win hwin).bottom⟩) event fb
  obtain ⟨htracked, hkeep⟩ := h.tracked.mouse hf hmouse
  have hclean := Clean.handleMouse hf h.coherent.clean hmouse
  refine ⟨wm', fb', hmouse, ?_, hkeep⟩
  obtain ⟨fb₁, cursor, -, hdelta, hcases⟩ := handleMouse_eq_some hmouse
  obtain ⟨hin, hcursor⟩ :=
    CursorState.applyDelta_eq_some h.inside.width_lt h.inside.height_lt hdelta
  have hwidth : cursor.screenWidth = asI32 info.width := by
    rw [hcursor]
    exact h.screenWidth_eq
  have hheight : cursor.screenHeight = asI32 info.height := by
    rw [hcursor]
    exact h.screenHeight_eq
  rcases hcases with ⟨windows, focused, hred, rfl, rfl⟩ | ⟨hfast, cursor', hsave, -, rfl⟩
  · exact ⟨htracked.session, ⟨h.coherent.screenInfo_eq, htracked.valid, h.coherent.holds, hclean⟩,
      hred _ WmWindow.chromeStable_bounded h.bounded, h.backBuf_size, h.bgCache_size,
      hsize.trans h.fb_size, hin, hwidth, hheight⟩
  · obtain ⟨savedBg, rfl⟩ := CursorState.saveBackground_eq_some hsave
    exact ⟨htracked.session, ⟨h.coherent.screenInfo_eq, htracked.valid, h.coherent.holds, hclean⟩,
      h.bounded, h.backBuf_size, h.bgCache_size, hsize.trans h.fb_size,
      ⟨hin.x_nonneg, hin.x_lt, hin.y_nonneg, hin.y_lt, hin.width_lt, hin.height_lt⟩, hwidth, hheight⟩

/-- **`handle_mouse`** never fails. -/
theorem Running.exists_handleMouse (hf : info.Fits) (hw : info.width ≤ 2 ^ 31 - 2 ^ 15)
    (hh : info.height ≤ 16843009) (h : Running info created wm fb) (event : MouseEvent) :
    ∃ wm₁ fb₁ wm' fb', wm.handleMouse event fb info = some (wm₁, fb₁) ∧
      (Statics.mk (some wm) (some ⟨fb, info⟩)).handleMouse event =
        some ⟨some wm', some ⟨fb', info⟩⟩ ∧
      Running info created wm' fb' ∧ SameDesktop wm₁ wm' ∧
        KeepsText none wm.windows wm'.windows ∧ wm'.needsComposite = false := by
  obtain ⟨wm₁, fb₁, hmouse, h₁, hkeep⟩ := h.exists_mouse hf hw hh event
  cases hneeds : wm₁.needsComposite with
  | true =>
    obtain ⟨wm', fb', hcomp, h', hsame, hkeep', hfalse⟩ := h₁.exists_composite hf
    exact ⟨wm₁, fb₁, wm', fb', hmouse, Statics.handleMouse_of_composite hmouse hneeds hcomp, h', hsame,
      hkeep.trans hkeep', hfalse⟩
  | false =>
    exact ⟨wm₁, fb₁, wm₁, fb₁, hmouse, Statics.handleMouse_of_fast hmouse hneeds, h₁, .refl wm₁, hkeep,
      hneeds⟩

/-- **`init_console`** does not fail, and keeps the invariant while a composite is pending. -/
theorem Running.exists_initConsole (hf : info.Fits) (h : Running info created wm fb)
    (hneeds : wm.needsComposite = true) (winId : ℕ) :
    ∃ wm', (Statics.mk (some wm) (some ⟨fb, info⟩)).initConsole winId =
        some ⟨some wm', some ⟨fb, info⟩⟩ ∧ Running info created wm' fb ∧ SameDesktop wm wm' ∧
      KeepsText (some winId) wm.windows wm'.windows ∧ wm'.needsComposite = true := by
  have hnew : ∀ win ∈ wm.windows, ∃ console buf,
      Console.new win.buf win.bufInfo win.contentRect = some (console, buf) := by
    intro win hwin
    obtain ⟨buf, hfill, -⟩ := paints_fillRect ((h.coherent.valid win hwin).fits hf.formatFits)
      win.contentRect.x win.contentRect.y win.contentRect.width win.contentRect.height .black
      win.buf (show win.buf.size = _ from rfl)
    exact ⟨_, buf, Option.bind_eq_some_iff.2 ⟨buf, hfill, rfl⟩⟩
  obtain ⟨wm', hinit⟩ : ∃ wm', wm.initConsole winId = some wm' := by
    obtain ⟨windows, hmodify⟩ := exists_modifyWindow
      (f := fun win => (Console.new win.buf win.bufInfo win.contentRect).bind fun r =>
        some { win with buf := r.2, console := some r.1 }) winId (fun win hwin => by
      obtain ⟨console, buf, hcall⟩ := hnew win hwin
      exact ⟨_, Option.bind_eq_some_iff.2 ⟨_, hcall, rfl⟩⟩)
    exact ⟨_, Option.bind_eq_some_iff.2 ⟨windows, hmodify, rfl⟩⟩
  obtain ⟨windows, rfl, hrel⟩ := initConsole_rewritten hf.formatFits hinit
  exact ⟨_, Statics.updateWm_of_eq hinit,
    h.rewrite hrel fun hfalse => absurd (hneeds.symm.trans hfalse) (by decide),
    sameDesktop_of_rewritten wm _ hrel, keepsText_of_rewritten hrel, hneeds⟩

omit [BasicFonts] in
/-- A window that lies on the screen is in bounds. -/
theorem bounded_of_onScreen (hf : info.Fits) (hstride : info.stride = info.width)
    (hsize : info.width * info.height * info.bytesPerPixel ≤ USIZE_MAX)
    (hx : win.x + win.width ≤ info.width) (hy : win.y + win.height ≤ info.height) :
    win.Bounded info := by
  refine ⟨hx.trans hf.width_le, hy.trans hf.height_le, fun row hrow => ?_⟩
  have hlast : win.y + row + 1 ≤ info.height := by omega
  rw [← Nat.add_mul, hstride]
  refine le_trans (Nat.mul_le_mul_right _ ?_) hsize
  calc
    (win.y + row) * info.width + win.x + min win.width (info.width - win.x)
        ≤ (win.y + row) * info.width + info.width := by omega
    _ = (win.y + row + 1) * info.width := (Nat.succ_mul _ _).symm
    _ ≤ info.height * info.width := Nat.mul_le_mul_right _ hlast
    _ = info.width * info.height := Nat.mul_comm _ _

/-- **`create_window`** does not fail on a window that lies on the screen. -/
theorem Running.exists_createWindow (hf : info.Fits) (hstride : info.stride = info.width)
    (hsize : info.width * info.height * info.bytesPerPixel ≤ USIZE_MAX)
    (h : Running info created wm fb) (x y width height : UInt64)
    (hx : x.toNat + width.toNat ≤ info.width) (hy : y.toNat + height.toNat ≤ info.height)
    (title : String) (ownerTask : UInt64) :
    ∃ win wm', win.frame = (wm.newWindow x.toNat y.toNat width.toNat height.toNat title
        ownerTask.toNat).frame ∧ win.Valid info ∧
      wm' = { wm with
        nextId := wm.nextId + 1
        windows := wm.windows ++ [win]
        focused := if wm.focused = none then some wm.nextId else wm.focused
        needsComposite := true } ∧
      (Statics.mk (some wm) (some ⟨fb, info⟩)).createWindow x.toNat y.toNat width.toNat height.toNat
          title ownerTask.toNat = some (⟨some wm', some ⟨fb, info⟩⟩, wm.nextId) ∧
        Running info (created ++ [win.frame]) wm' fb := by
  have hscreen : wm.screenInfo = info := h.coherent.screenInfo_eq
  have hbuf : width.toNat * height.toNat * wm.screenInfo.bytesPerPixel ≤ USIZE_MAX := by
    rw [hscreen]
    refine le_trans (Nat.mul_le_mul_right _ (Nat.mul_le_mul ?_ ?_)) hsize
    · omega
    · omega
  obtain ⟨wm', id, hcreate⟩ := WindowManager.exists_createWindow wm x.toNat y.toNat width.toNat
    height.toNat title ownerTask.toNat (hscreen ▸ hf.formatFits) (Nat.le_pred_of_lt width.toNat_lt)
    (Nat.le_pred_of_lt height.toNat_lt) hbuf
  obtain ⟨rfl, -, win, hdraw, rfl⟩ := createWindow_draws hcreate
  have hsession := h.session.step (.createWindow hcreate)
  have hvalid := (valid_newWindow (Nat.le_pred_of_lt width.toNat_lt)
    (Nat.le_pred_of_lt height.toNat_lt) hbuf x.toNat y.toNat title ownerTask.toNat).drawChrome
      (hscreen ▸ hf.formatFits) hdraw
  rw [hscreen] at hvalid
  obtain ⟨buf, rfl⟩ := WmWindow.drawChrome_eq_some hdraw
  refine ⟨{ wm.newWindow x.toNat y.toNat width.toNat height.toNat title ownerTask.toNat with buf },
    _, rfl, hvalid, rfl, ?_, hsession, ?_, ?_, h.backBuf_size, h.bgCache_size, h.fb_size, h.inside,
    h.screenWidth_eq, h.screenHeight_eq⟩
  · simp only [Statics.createWindow, Statics.withWm, hcreate, Option.bind_eq_bind, Option.bind_some,
      Option.getD_some]
  · refine ⟨hscreen, fun w hw => ?_, h.coherent.holds, fun hfalse => by cases hfalse⟩
    rcases List.mem_append.1 hw with hw | hw
    · exact h.coherent.valid w hw
    · rw [List.mem_singleton.1 hw]
      exact hvalid
  · intro w hw
    rcases List.mem_append.1 hw with hw | hw
    · exact h.bounded w hw
    · rw [List.mem_singleton.1 hw]
      exact bounded_of_onScreen hf hstride hsize hx hy

/-- A new window manager is ready to run. -/
theorem running_of_new (hb : BootScreen info fb) (h : new info = some wm) :
    Running info [] wm fb := by
  obtain ⟨hwindows, -, -, -, hcursor, hback, hcache⟩ := new_eq_some h
  have hfits := hb.fits
  have hw := hb.width_le
  have hh := hb.height_le
  have hw' := hb.width_pos
  have hh' := hb.height_pos
  refine ⟨Session.inv_new h, coherent_of_new hb.stride_eq h fb, by rw [hwindows]; exact nofun, hback,
    hcache, ?_, ?_, by rw [hcursor]; rfl, by rw [hcursor]; rfl⟩
  · rw [hb.size_eq, hb.stride_eq]
  · rw [hcursor]
    have hx : asI32 (info.width / 2) = (info.width / 2 : ℕ) := asI32_of_lt (by omega)
    have hy : asI32 (info.height / 2) = (info.height / 2 : ℕ) := asI32_of_lt (by omega)
    have hwidth : asI32 info.width = info.width := asI32_of_lt (by omega)
    have hheight : asI32 info.height = info.height := asI32_of_lt (by omega)
    refine ⟨?_, ?_, ?_, ?_, asI32_lt _, asI32_lt _⟩
    · simp only [CursorState.new, hx]
      omega
    · simp only [CursorState.new, hx, hwidth]
      omega
    · simp only [CursorState.new, hy]
      omega
    · simp only [CursorState.new, hy, hheight]
      omega

/-! ### The calls of a task -/

variable {winId : UInt64} {content : Rect} {shown : Bool}
  {g : Grid (content.height / FONT_HEIGHT) (content.width / FONT_WIDTH)}

/-- **A call for the console of a window that hosts a grid** never fails. -/
theorem Running.exists_call (hf : info.Fits) (h : Running info created wm fb)
    (hhosts : wm.Hosts winId.toNat content shown g) {op : Statics.Op} {ops : List Console.Op}
    (hop : op.onConsole winId = true) (hd : Console.Disciplined shown (op.console ++ ops)) :
    ∃ wm', (Statics.mk (some wm) (some ⟨fb, info⟩)).perform op = some ⟨some wm', some ⟨fb, info⟩⟩ ∧
      Running info created wm' fb ∧ SameDesktop wm wm' ∧
      KeepsText (some winId.toNat) wm.windows wm'.windows ∧
      wm'.Hosts winId.toNat content (op.console.foldl (fun _ op => op.showsCursor) shown)
        (op.console.foldl Grid.perform g) ∧
      Console.Disciplined (op.console.foldl (fun _ op => op.showsCursor) shown) ops := by
  obtain ⟨wm', hst, hhosts', hd'⟩ := Statics.Hosts.call hf h.tracked hhosts hop hd
  refine ⟨wm', hst, ?_⟩
  have hconsole : ∀ {f : Console → Buf → FrameBufferInfo → Option (Console × Buf)},
      Console.KeepsSize f → (Statics.mk (some wm) (some ⟨fb, info⟩)).updateConsole winId.toNat f =
        some ⟨some wm', some ⟨fb, info⟩⟩ →
      Running info created wm' fb ∧ SameDesktop wm wm' ∧
        KeepsText (some winId.toNat) wm.windows wm'.windows := by
    intro f hsize hcall
    obtain ⟨wm₁, heq, h₁, hsame, hkeep⟩ := h.updateConsole hsize hcall
    cases heq
    exact ⟨h₁, hsame, hkeep⟩
  have hrest : Running info created wm' fb ∧ SameDesktop wm wm' ∧
      KeepsText (some winId.toNat) wm.windows wm'.windows := by
    cases op with
    | consoleWrite id s =>
      obtain rfl : id = winId := by simpa [Statics.Op.onConsole] using hop
      exact hconsole (Console.keepsSize_writeStr _) hst
    | consoleShowCursor id =>
      obtain rfl : id = winId := by simpa [Statics.Op.onConsole] using hop
      exact hconsole Console.keepsSize_drawCursor hst
    | consoleHideCursor id =>
      obtain rfl : id = winId := by simpa [Statics.Op.onConsole] using hop
      exact hconsole Console.keepsSize_eraseCursor hst
    | consoleClear id =>
      obtain rfl : id = winId := by simpa [Statics.Op.onConsole] using hop
      exact hconsole Console.keepsSize_clear hst
    | markDirty id =>
      obtain ⟨wm₁, hmark, h₁, hsame, hkeep⟩ := h.exists_markDirty id.toNat
      cases hst.symm.trans hmark
      exact ⟨h₁, hsame, hkeep.weaken _⟩
    | createWindow | initConsole | handleMouse | composite => cases hop
  exact ⟨hrest.1, hrest.2.1, hrest.2.2, hhosts', hd'⟩

end WindowManager

namespace Statics

open WindowManager

variable {fb : Buf} {fbs : Option FrameBufferState} {wm : WindowManager} {st₀ st : Statics}
  {winId : UInt64} {pre ops : List Op}

/-- A run from the start, and the windows it has created. -/
theorem tracked_of_run (hf : info.Fits)
    (hinit : (Statics.mk none (some ⟨fb, info⟩)).init = some st₀)
    (hpre : pre.foldlM perform st₀ = some ⟨some wm, fbs⟩) :
    ∃ created fb', fbs = some ⟨fb', info⟩ ∧ Tracked info created wm := by
  obtain ⟨wm₀, hnew, rfl⟩ := init_eq_some hinit
  have hwindows : wm₀.windows = [] := (new_eq_some hnew).1
  have ht₀ : Tracked info [] wm₀ := ⟨Session.inv_new hnew, by rw [hwindows]; exact nofun⟩
  obtain ⟨created, wm', fb', heq, ht⟩ := ht₀.run hf hpre
  cases heq
  exact ⟨created, fb', rfl, ht⟩

/-- **A console shows the grid that its own calls alone produce**, whatever calls are made for other
windows and for the mouse in between, and wherever its window is moved. -/
theorem grid_of_interleaving (hf : info.Fits)
    (hinit : (Statics.mk none (some ⟨fb, info⟩)).init = some st₀)
    (hpre : pre.foldlM perform st₀ = some ⟨some wm, fbs⟩) (hwin : win ∈ wm.windows)
    (hid : win.id = winId.toNat) (hrows : 0 < win.contentRect.height / FONT_HEIGHT)
    (hcols : 0 < win.contentRect.width / FONT_WIDTH)
    (hops : (Op.initConsole winId :: ops).foldlM perform ⟨some wm, fbs⟩ = some st)
    (hinit' : Op.initConsole winId ∉ ops)
    (hd : Console.Disciplined false (consoleOps winId ops)) :
    ∃ wm' fb', st = ⟨some wm', some ⟨fb', info⟩⟩ ∧ wm'.Hosts winId.toNat win.contentRect
      ((consoleOps winId ops).foldl (fun _ op => op.showsCursor) false)
      ((consoleOps winId ops).foldl Grid.perform (Grid.blank hrows hcols)) := by
  obtain ⟨created, fb₁, rfl, ht⟩ := tracked_of_run hf hinit hpre
  rw [List.foldlM_cons] at hops
  obtain ⟨st₁, hop, hops⟩ := Option.bind_eq_some_iff.1 hops
  obtain ⟨created₁, wm₁, fb₂, rfl, ht₁, -⟩ := ht.step hf hop
  obtain ⟨wm₁', -, heq⟩ := updateWm_eq_some hop
  cases heq
  have hhosts : wm₁.Hosts winId.toNat win.contentRect false (Grid.blank hrows hcols) := by
    rw [← hid]
    have hop' : (mk (some wm) (some ⟨fb₁, info⟩)).initConsole win.id =
        some ⟨some wm₁, some ⟨fb₁, info⟩⟩ := hid ▸ hop
    exact hosts_initConsole hf.formatFits ht hwin hrows hcols hop'
  exact Hosts.run hf ht₁ hhosts hinit' hd hops

/-- A screen for a window with two characters. -/
abbrev twoColumns : FrameBufferInfo := ⟨28, 52, .rgb, 3, 28⟩

omit [BasicFonts] in
/-- A window is clicked and composited between two texts. -/
theorem grid_of_interleaving_twoColumns :
    let _ := BasicFonts.sample
    let fb : Buf := Array.replicate 4368 0
    let click : MouseEvent := ⟨0, 0, true, false, false⟩
    ∃ st₀ wm fbs win wm' fb',
      (Statics.mk none (some ⟨fb, twoColumns⟩)).init = some st₀ ∧
      [Op.createWindow 0 0 28 52 "" 0].foldlM perform st₀ = some ⟨some wm, fbs⟩ ∧
      win ∈ wm.windows ∧ ∃ (hrows : 0 < win.contentRect.height / FONT_HEIGHT)
        (hcols : 0 < win.contentRect.width / FONT_WIDTH),
        [Op.initConsole 0, .consoleWrite 0 "r", .handleMouse click, .composite,
          .consoleWrite 0 "o"].foldlM perform ⟨some wm, fbs⟩ =
            some ⟨some wm', some ⟨fb', twoColumns⟩⟩ ∧
        wm'.Hosts (0 : UInt64).toNat win.contentRect false
          (((Grid.blank hrows hcols).put 'r').put 'o') := by
  intro _ fb click
  have hf : twoColumns.Fits :=
    .of_le (by decide) (Nat.le_refl 3) (by decide) (by decide) (by decide)
  have hsize : fb.size = 4368 := Array.size_replicate
  have hb : BootScreen twoColumns fb :=
    ⟨⟨by decide, by decide, Nat.le_refl _, .inl rfl, Nat.le_refl 3, hsize, by rw [hsize]; decide⟩,
      rfl, by decide, by decide⟩
  clear_value fb
  obtain ⟨wm₀, hnew⟩ := WindowManager.exists_new hf (by decide) (by decide)
  obtain ⟨hwindows, hnext, -⟩ := new_eq_some hnew
  obtain ⟨win, wm₁, hframe, -, hwm₁, hcreate, h₁⟩ := (running_of_new hb hnew).exists_createWindow
    hf rfl (by decide) 0 0 28 52 (by decide) (by decide) "" 0
  have hid : win.id = (0 : UInt64).toNat := (WmWindow.id_eq_of_frame_eq hframe).trans hnext
  have hcontent : win.contentRect = ⟨6, 30, 16, 16⟩ := WmWindow.contentRect_eq_of_frame_eq hframe
  have hwin : win ∈ wm₁.windows := by
    rw [hwm₁]
    exact List.mem_append_right _ (List.mem_singleton.2 rfl)
  have hrows : 0 < win.contentRect.height / FONT_HEIGHT := by rw [hcontent]; decide
  have hcols : 0 < win.contentRect.width / FONT_WIDTH := by rw [hcontent]; decide
  obtain ⟨wm₂, hconsole, h₂, -⟩ := h₁.exists_initConsole hf (by rw [hwm₁]) (0 : UInt64).toNat
  have hhosts₂ := hosts_initConsole hf.formatFits h₁.tracked hwin hrows hcols (hid ▸ hconsole)
  rw [hid] at hhosts₂
  have hr : Console.Disciplined false ((Op.consoleWrite 0 "r").console ++ []) :=
    ⟨rfl, by decide, trivial⟩
  have ho : Console.Disciplined false ((Op.consoleWrite 0 "o").console ++ []) :=
    ⟨rfl, by decide, trivial⟩
  obtain ⟨wm₃, hwrite, h₃, -, -, hhosts₃, -⟩ := h₂.exists_call hf hhosts₂ rfl hr
  obtain ⟨-, -, wm₄, fb₄, -, hmouse, h₄, -, hkeep₄, -⟩ :=
    h₃.exists_handleMouse hf (by decide) (by decide) click
  obtain ⟨wm₅, fb₅, hcomp, h₅, -, hkeep₅, -⟩ := h₄.exists_composite hf
  obtain ⟨wm₆, hwrite', -⟩ :=
    h₅.exists_call hf ((hhosts₃.keep hkeep₄ nofun).keep hkeep₅ nofun) rfl ho
  have hpre : [Op.createWindow 0 0 28 52 "" 0].foldlM perform ⟨some wm₀, some ⟨fb, twoColumns⟩⟩ =
      some ⟨some wm₁, some ⟨fb, twoColumns⟩⟩ := by
    simp only [List.foldlM_cons, perform, hcreate, Option.bind_eq_bind, Option.bind_some]
    rfl
  have hops : [Op.initConsole 0, .consoleWrite 0 "r", .handleMouse click, .composite,
      .consoleWrite 0 "o"].foldlM perform ⟨some wm₁, some ⟨fb, twoColumns⟩⟩ =
        some ⟨some wm₆, some ⟨fb₅, twoColumns⟩⟩ := by
    rw [List.foldlM_cons, perform, hconsole, Option.bind_eq_bind, Option.bind_some,
      List.foldlM_cons, hwrite, Option.bind_eq_bind, Option.bind_some,
      List.foldlM_cons, perform, hmouse, Option.bind_eq_bind, Option.bind_some,
      List.foldlM_cons, perform_composite_of_eq ⟨fb₄, twoColumns⟩ hcomp, Option.bind_eq_bind,
      Option.bind_some, List.foldlM_cons, hwrite']
    rfl
  obtain ⟨wm', fb', heq, hhosts⟩ := grid_of_interleaving hf (init_of_eq ⟨fb, twoColumns⟩ hnew)
    hpre hwin hid hrows hcols hops (by decide) ⟨rfl, by decide, rfl, by decide, trivial⟩
  cases heq
  exact ⟨_, _, _, win, wm₆, fb₅, init_of_eq ⟨fb, twoColumns⟩ hnew, hpre, hwin, hrows, hcols, hops,
    hhosts⟩

end Statics

end ROs
