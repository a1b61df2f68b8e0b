import ROs.Framebuffer.Console

/-!
# Windows

`WmWindow` of `wm.rs`: a window with its own pixel buffer, its chrome (title bar, border and
title) and its console.

`WmWindow.Valid` says what `create_window` sets up and nothing changes: the buffer has the format
of the screen and holds exactly the pixels of the window.
-/

namespace ROs

abbrev DEFAULT_TITLE_BAR_HEIGHT : ℕ := 24

abbrev WINDOW_PADDING : ℕ := 6

abbrev MAX_TITLE : ℕ := 32

/-- `WmWindow`. -/
structure WmWindow where
  id : ℕ
  x : ℕ
  y : ℕ
  width : ℕ
  height : ℕ
  title : Vector UInt8 MAX_TITLE
  titleLen : ℕ
  /-- The title is cut to the array that holds it. -/
  titleLen_le : titleLen ≤ MAX_TITLE
  buf : Buf
  bufInfo : FrameBufferInfo
  console : Option Console
  dirty : Bool
  ownerTask : ℕ

namespace WmWindow

/-- `WmWindow::title_str`, as characters. -/
def titleStr (self : WmWindow) : List Char :=
  ((String.fromUTF8? ⟨self.title.toArray.extract 0 self.titleLen⟩).getD "?").toList

/-- `WmWindow::content_rect`. -/
def contentRect (self : WmWindow) : Rect :=
  let titleH := min DEFAULT_TITLE_BAR_HEIGHT self.height
  { x := WINDOW_PADDING
    y := titleH + WINDOW_PADDING
    width := self.width - WINDOW_PADDING * 2
    height := self.height - (titleH + WINDOW_PADDING * 2) }

/-- The rectangle of the window on the screen. -/
def rect (self : WmWindow) : Rect := ⟨self.x, self.y, self.width, self.height⟩

variable [BasicFonts]

/-- The drawing of `WmWindow::draw_chrome`, on the buffer of the window. -/
def chrome (self : WmWindow) (focused : Bool) (buf : Buf) : Option Buf := do
  let titleH := min DEFAULT_TITLE_BAR_HEIGHT self.height
  let tbColor : Color := if focused then ⟨0x20, 0x3A, 0x58⟩ else ⟨0x18, 0x2A, 0x40⟩
  let buf ← fillRect buf self.bufInfo 0 0 self.width titleH tbColor
  let buf ← drawRectOutline buf self.bufInfo ⟨0, 0, self.width, self.height⟩ ⟨0x55, 0x5A, 0x66⟩
  if titleH ≥ FONT_HEIGHT then
    let textX := WINDOW_PADDING
    let textY := (titleH - FONT_HEIGHT) / 2
    drawText buf self.bufInfo textX textY self.titleStr ⟨0xF0, 0xF2, 0xF6⟩
  else
    some buf

/-- `WmWindow::draw_chrome`. -/
def drawChrome (self : WmWindow) (focused : Bool) : Option WmWindow := do
  let buf ← self.chrome focused self.buf
  some { self with buf }

/-! ### Windows of a screen -/

/-- What `create_window` sets up for a screen. -/
structure Valid (screen : FrameBufferInfo) (win : WmWindow) : Prop where
  bufInfo_eq : win.bufInfo =
    { screen with width := win.width, height := win.height, stride := win.width }
  size_eq : win.buf.size = win.width * win.height * screen.bytesPerPixel
  size_le : win.buf.size ≤ USIZE_MAX
  width_le : win.width ≤ USIZE_MAX
  height_le : win.height ≤ USIZE_MAX

variable {screen : FrameBufferInfo} {win : WmWindow}

omit [BasicFonts] in
theorem Valid.fits (h : win.Valid screen) (hf : screen.FormatFits) : win.bufInfo.Fits := by
  have hsize := h.size_eq ▸ h.size_le
  rw [h.bufInfo_eq]
  exact .of_le (Nat.le_refl _) hf h.width_le h.height_le hsize

omit [BasicFonts] in
/-- Every pixel of the window lies in its buffer. -/
theorem Valid.live_of_onScreen (hv : win.Valid screen) {p : ℕ × ℕ}
    (hp : win.bufInfo.OnScreen p) : win.bufInfo.Live win.buf.size p := by
  have hholds := @FrameBufferInfo.holds_of_stride_eq win.bufInfo (by rw [hv.bufInfo_eq]) p hp
  rwa [show win.bufInfo.width * win.bufInfo.height * win.bufInfo.bytesPerPixel = win.buf.size by
    rw [hv.size_eq, hv.bufInfo_eq]] at hholds

omit [BasicFonts] in
/-- The content lies in the window. -/
theorem Valid.onScreen_of_content (hv : win.Valid screen) {p : ℕ × ℕ} (hp : win.contentRect.Contains p) :
    win.bufInfo.OnScreen p := by
  obtain ⟨hx, hx', hy, hy'⟩ := hp
  simp only [contentRect, WINDOW_PADDING] at hx hx' hy hy'
  rw [hv.bufInfo_eq]
  exact ⟨by dsimp only; omega, by dsimp only; omega⟩

/-- The picture of the chrome. -/
def chromeLayer (self : WmWindow) (focused : Bool) : Layer (ℕ × ℕ) Color :=
  let titleH := min DEFAULT_TITLE_BAR_HEIGHT self.height
  let title := if titleH ≥ FONT_HEIGHT then
      textLayer WINDOW_PADDING ((titleH - FONT_HEIGHT) / 2) self.titleStr ⟨0xF0, 0xF2, 0xF6⟩
    else Layer.clear
  (title.atop (Layer.fill (OutlineOn self.bufInfo ⟨0, 0, self.width, self.height⟩)
    ⟨0x55, 0x5A, 0x66⟩)).atop (Layer.fill (Rect.mk 0 0 self.width titleH).Contains
      (if focused then ⟨0x20, 0x3A, 0x58⟩ else ⟨0x18, 0x2A, 0x40⟩))

theorem paints_chrome (h : win.bufInfo.Fits) (focused : Bool) (n : ℕ) :
    (win.bufInfo.surface n).Paints (win.chromeLayer focused) fun buf => win.chrome focused buf := by
  refine (paints_fillRect h _ _ _ _ _).comp ((paints_drawRectOutline h _ _).comp ?_)
  split
  · exact paints_drawText h _ _ _ _
  · exact Surface.Paints.skip

/-- Redrawing the chrome changes the buffer only, and keeps its length. -/
theorem exists_drawChrome (win : WmWindow) (h : win.bufInfo.Fits) (focused : Bool) :
    ∃ buf, win.drawChrome focused = some { win with buf } ∧ buf.size = win.buf.size := by
  obtain ⟨buf, hbuf, hsize, -⟩ := paints_chrome h focused win.buf.size win.buf rfl
  exact ⟨buf, by rw [drawChrome, show win.chrome focused win.buf = some buf from hbuf]; rfl, hsize⟩

end WmWindow

end ROs
