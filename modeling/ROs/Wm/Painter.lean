import ROs.Wm.Manager

/-!
# Compositing is the painter's algorithm

A window is a layer of pixel contents (`WmWindow.layer`), and `blit_window` paints exactly this
layer (`paints_blitWindow`), although it copies clipped rows of bytes between buffers with
different strides.  A loop over the windows therefore paints their stack, and at every point the
last window that contains it is shown.

* `WindowManager.composite_painter` : **`composite` shows at every point the topmost window, or
  the taskbar over the background, and the cursor over all of it.**
-/

namespace ROs

namespace FrameBufferInfo

variable (info : FrameBufferInfo)

/-- Buffers of `n` bytes, painted with whole pixel contents. -/
def byteSurface (n : ℕ) : Surface Buf (ℕ × ℕ) (ℕ → Option UInt8) (ℕ → Option UInt8) where
  Ok buf := buf.size = n
  Live := info.Live n
  look := info.pixel
  mix c _ := c
  mix_mix _ _ _ := rfl

end FrameBufferInfo

namespace WmWindow

/-- The pixels of the window where it is on the screen. -/
def layer (win : WmWindow) : Layer (ℕ × ℕ) (ℕ → Option UInt8) := fun p =>
  if win.rect.Contains p then some (win.bufInfo.pixel win.buf (p.1 - win.x, p.2 - win.y)) else none

/-- The byte offsets of the visible rows of the window are `usize` values. -/
def OffsetsFit (info : FrameBufferInfo) (win : WmWindow) : Prop :=
  ∀ row, row < min win.height (info.height - win.y) →
    ((win.y + row) * info.stride + win.x) * info.bytesPerPixel +
      min win.width (info.width - win.x) * info.bytesPerPixel ≤ USIZE_MAX

end WmWindow

variable {info : FrameBufferInfo} {n : ℕ} {win : WmWindow}

/-- The part of the window on the screen that is `row` lines below its upper edge. -/
def rowLayer (info : FrameBufferInfo) (win : WmWindow) (row : ℕ) :
    Layer (ℕ × ℕ) (ℕ → Option UInt8) := fun p =>
  if p.2 = win.y + row ∧ win.x ≤ p.1 ∧ p.1 < win.x + min win.width (info.width - win.x) then
    some (win.bufInfo.pixel win.buf (p.1 - win.x, row))
  else none

theorem paints_blitRow (hf : info.width ≤ info.stride) (hv : win.Valid info)
    (hfit : win.OffsetsFit info) (hn : info.Holds n) {row : ℕ}
    (hrow : row < min win.height (info.height - win.y)) :
    (info.byteSurface n).Paints (rowLayer info win row) fun fbBuf =>
      blitRow fbBuf info win (min win.width (info.width - win.x)) row := by
  rintro buf rfl
  have hstride : win.bufInfo.stride = win.width := by rw [hv.bufInfo_eq]
  have hbpp : win.bufInfo.bytesPerPixel = info.bytesPerPixel := by rw [hv.bufInfo_eq]
  obtain ⟨w, hw⟩ : ∃ w, w = min win.width (info.width - win.x) := ⟨_, rfl⟩
  have hsrcOffset : row * win.bufInfo.stride * info.bytesPerPixel = win.bufInfo.offset (0, row) := by
    rw [FrameBufferInfo.offset, Nat.add_zero, hbpp]
  have hdstOffset : ((win.y + row) * info.stride + win.x) * info.bytesPerPixel =
      info.offset (win.x, win.y + row) := rfl
  have hdst := hfit row hrow
  have hsrc : win.bufInfo.offset (0, row) + w * info.bytesPerPixel ≤ win.buf.size := by
    rw [← hsrcOffset, hv.size_eq, hstride, ← Nat.add_mul]
    refine Nat.mul_le_mul_right _ ?_
    calc row * win.width + w ≤ row * win.width + win.width := by omega
      _ = win.width * (row + 1) := by rw [Nat.mul_succ, Nat.mul_comm]
      _ ≤ win.width * win.height := Nat.mul_le_mul_left _ (by omega)
  have hsize := hv.size_le
  unfold rowLayer blitRow
  rw [← hw] at hdst ⊢
  rw [hdstOffset] at hdst
  dsimp only
  rw [hsrcOffset, hdstOffset, usize_of_le (by omega), usize_of_le (by omega)]
  simp only [Option.bind_eq_bind, Option.bind_some]
  rw [usize_of_le (by omega), usize_of_le (by omega)]
  simp only [Option.bind_some]
  by_cases hguard : info.offset (win.x, win.y + row) + w * info.bytesPerPixel ≤ buf.size
  · obtain ⟨buf', hcopy, hwrites⟩ := Buf.exists_copyFromSlice buf
      (win.buf.extract (win.bufInfo.offset (0, row))
        (win.bufInfo.offset (0, row) + w * info.bytesPerPixel))
      (Nat.le_add_right _ (w * info.bytesPerPixel)) hguard (by rw [Array.size_extract]; omega)
    refine ⟨buf', ?_, hwrites.size_eq, fun p hp => ?_⟩
    · rw [if_pos ⟨hsrc, hguard⟩, Buf.slice_of_le (Nat.le_add_right _ _) hsrc]
      exact hcopy
    · by_cases hzero : w = 0
      · subst hzero
        rw [hwrites.eq_of_length (by simp), if_neg (by omega)]
        rfl
      · change info.pixel buf' p = _
        rw [FrameBufferInfo.pixel_of_copied_row hf hbpp (by omega) hp.1 hsrc hwrites, Nat.zero_add]
        split <;> rfl
  · -- the guard of the source only skips rows that are clipped away completely
    have hzero : w = 0 := by
      by_contra hne
      exact hguard ((hn (win.x + (w - 1), win.y + row)
        ⟨by dsimp only; omega, by dsimp only; omega⟩).row (Nat.pos_of_ne_zero hne))
    refine ⟨buf, by rw [if_neg fun h => hguard h.2], rfl, fun p _ => ?_⟩
    rw [if_neg (by omega)]
    rfl

/-- **`blit_window` paints the window**, clipped to the screen. -/
theorem paints_blitWindow (hf : info.width ≤ info.stride) (hv : win.Valid info)
    (hfit : win.OffsetsFit info) (hn : info.Holds n) :
    (info.byteSurface n).Paints win.layer fun fbBuf => blitWindow fbBuf info win := by
  refine Surface.Paints.foldlM_union (g := rowLayer info win)
    (fun row hrow => paints_blitRow hf hv hfit hn (mem_range.1 hrow).2) fun p hp => ?_
  obtain ⟨hx, hy⟩ := hp.1
  simp only [mem_range, WmWindow.layer, rowLayer]
  by_cases hin : win.rect.Contains p
  · have hc : win.x ≤ p.1 ∧ p.1 < win.x + win.width ∧ win.y ≤ p.2 ∧ p.2 < win.y + win.height := hin
    refine ⟨fun row hrow => ?_, .inr ⟨p.2 - win.y, by omega, ?_⟩⟩
    · by_cases hp' : p.2 = win.y + row
      · rw [if_pos ⟨hp', by omega, by omega⟩, if_pos hin, hp', Nat.add_sub_cancel_left]
        exact .inr rfl
      · exact .inl (if_neg fun h => hp' h.1)
    · rw [if_pos ⟨by omega, by omega, by omega⟩, if_pos hin]
  · refine ⟨fun row hrow => .inl (if_neg fun h => hin ?_), .inl (if_neg hin)⟩
    exact ⟨h.2.1, by simp only [WmWindow.rect]; omega, by simp only [WmWindow.rect]; omega,
      by simp only [WmWindow.rect]; omega⟩

/-- Where `blit_window` succeeds, no offset has overflowed. -/
theorem offsetsFit_of_blitWindow {fbBuf fbBuf' : Buf} (h : blitWindow fbBuf info win = some fbBuf') :
    win.OffsetsFit info := by
  intro row hrow
  obtain ⟨buf, buf', hblit⟩ := exists_of_foldlM h (mem_range.2 ⟨Nat.zero_le _, hrow⟩)
  obtain ⟨srcOffset, -, hblit⟩ := Option.bind_eq_some_iff.1 hblit
  obtain ⟨dstOffset, hdst, hblit⟩ := Option.bind_eq_some_iff.1 hblit
  obtain ⟨srcEnd, -, hblit⟩ := Option.bind_eq_some_iff.1 hblit
  obtain ⟨dstEnd, hend, -⟩ := Option.bind_eq_some_iff.1 hblit
  obtain ⟨-, rfl⟩ := usize_eq_some.1 hdst
  exact (usize_eq_some.1 hend).1

/-- The windows are painted from back to front. -/
theorem paints_windows (hf : info.width ≤ info.stride) {windows : List WmWindow}
    (hv : ∀ win ∈ windows, win.Valid info) (hfit : ∀ win ∈ windows, win.OffsetsFit info)
    (hn : info.Holds n) :
    (info.byteSurface n).Paints (Layer.stack (windows.map WmWindow.layer))
      fun backBuf => windows.foldlM (fun backBuf win => blitWindow backBuf info win) backBuf :=
  Surface.Paints.foldlM fun win hwin => paints_blitWindow hf (hv win hwin) (hfit win hwin) hn

/-- The topmost window that contains a point: the last one in the list. -/
def topmost (windows : List WmWindow) (p : ℕ × ℕ) : Option WmWindow :=
  windows.reverse.find? fun win => win.rect.Contains p

theorem mem_of_topmost {windows : List WmWindow} {p : ℕ × ℕ} (h : topmost windows p = some win) :
    win ∈ windows := List.mem_reverse.1 (List.mem_of_find?_eq_some h)

theorem contains_of_topmost {windows : List WmWindow} {p : ℕ × ℕ}
    (h : topmost windows p = some win) : win.rect.Contains p := by
  simpa using List.find?_some h

/-- The last window is on top wherever it is. -/
theorem topmost_concat {windows : List WmWindow} {p : ℕ × ℕ} (h : win.rect.Contains p) :
    topmost (windows ++ [win]) p = some win := by
  rw [topmost, List.reverse_append, List.reverse_singleton, List.singleton_append, List.find?_cons]
  simp [h]

/-- A stack of windows shows the topmost one. -/
theorem stack_layer (windows : List WmWindow) (p : ℕ × ℕ) :
    Layer.stack (windows.map WmWindow.layer) p =
      (topmost windows p).map fun win => win.bufInfo.pixel win.buf (p.1 - win.x, p.2 - win.y) := by
  rw [Layer.stack_eq_findSome?, topmost, ← List.map_reverse, List.findSome?_map]
  induction windows.reverse with
  | nil => rfl
  | cons win windows ih =>
    rw [List.findSome?_cons, List.find?_cons]
    by_cases hin : win.rect.Contains p
    · simp [WmWindow.layer, hin]
    · simpa [WmWindow.layer, hin] using ih

/-! ### The taskbar -/

variable [BasicFonts]

/-- The picture of the labels of the taskbar, from `lx` on. -/
def labelsLayer (tbY taskbarHeight : ℕ) (focused : Option ℕ) (lx : ℕ) :
    List WmWindow → Layer (ℕ × ℕ) Color
  | [] => Layer.clear
  | win :: windows =>
    let isFocused := focused = some win.id
    let label := textLayer lx (tbY + 6) win.titleStr
      (if isFocused then ⟨0xFF, 0xFF, 0xFF⟩ else ⟨0x88, 0x8C, 0x96⟩)
    let box := if isFocused then
        Layer.fill (Rect.mk (lx - 4) (tbY + 2) (win.titleLen * FONT_WIDTH + 12)
          (taskbarHeight - 4)).Contains ⟨0x28, 0x32, 0x44⟩
      else Layer.clear
    ((labelsLayer tbY taskbarHeight focused (lx + (win.titleLen * FONT_WIDTH + 16)) windows).atop
      label).atop box

theorem paints_drawLabels (hf : info.Fits) (tbY taskbarHeight : ℕ) (focused : Option ℕ) (lx : ℕ)
    (windows : List WmWindow) :
    (info.surface n).Paints (labelsLayer tbY taskbarHeight focused lx windows)
      fun buf => drawLabels buf info tbY taskbarHeight focused lx windows := by
  induction windows generalizing lx with
  | nil => exact Surface.Paints.skip
  | cons win windows ih =>
    have hrest := fun c => (paints_drawText hf lx (tbY + 6) win.titleStr c).comp
      (ih (lx + (win.titleLen * FONT_WIDTH + 16)))
    by_cases hfocus : focused = some win.id
    · simp only [labelsLayer, drawLabels, hfocus, if_true]
      exact (paints_fillRect hf _ _ _ _ _).comp (hfocus ▸ hrest _)
    · simp only [labelsLayer, drawLabels, hfocus, if_false]
      exact Surface.Paints.skip.comp (hrest _)

/-- The picture of the taskbar. -/
def taskbarLayer (info : FrameBufferInfo) (taskbarHeight : ℕ) (windows : List WmWindow)
    (focused : Option ℕ) : Layer (ℕ × ℕ) Color :=
  let tbY := info.height - taskbarHeight
  let sepX := 8 + 4 * FONT_WIDTH + 6
  ((((labelsLayer tbY taskbarHeight focused (sepX + 8) windows).atop
    (Layer.fill (Rect.mk sepX (tbY + 4) 1 (taskbarHeight - 8)).Contains ⟨0x44, 0x48, 0x55⟩)).atop
    (textLayer 8 (tbY + 6) ['r', '-', 'o', 's'] ⟨0xE0, 0xE4, 0xEC⟩)).atop
    (Layer.fill (Rect.mk 0 tbY info.width 1).Contains ⟨0x33, 0x38, 0x44⟩)).atop
    (Layer.fill (Rect.mk 0 tbY info.width taskbarHeight).Contains ⟨0x1A, 0x1E, 0x28⟩)

/-- **`draw_taskbar` paints the taskbar.** -/
theorem paints_drawTaskbar (hf : info.Fits) (taskbarHeight : ℕ) (windows : List WmWindow)
    (focused : Option ℕ) :
    (info.surface n).Paints (taskbarLayer info taskbarHeight windows focused)
      fun buf => drawTaskbar buf info taskbarHeight windows focused :=
  (paints_fillRect hf _ _ _ _ _).comp ((paints_fillRect hf _ _ _ _ _).comp
    ((paints_drawText hf _ _ _ _).comp ((paints_fillRect hf _ _ _ _ _).comp
      (paints_drawLabels hf _ _ _ _ _))))

/-! ### The scene -/

omit [BasicFonts] in
theorem keepsSize_blitRow (copyW row : ℕ) :
    Buf.KeepsSize fun fbBuf => blitRow fbBuf info win copyW row := by
  intro buf buf' h
  simp only [blitRow, Option.bind_eq_bind] at h
  obtain ⟨srcOffset, -, h⟩ := Option.bind_eq_some_iff.1 h
  obtain ⟨dstOffset, -, h⟩ := Option.bind_eq_some_iff.1 h
  obtain ⟨srcEnd, -, h⟩ := Option.bind_eq_some_iff.1 h
  obtain ⟨dstEnd, -, h⟩ := Option.bind_eq_some_iff.1 h
  split at h
  · obtain ⟨src, -, h⟩ := Option.bind_eq_some_iff.1 h
    exact Buf.keepsSize_copyFromSlice _ _ _ _ _ h
  · exact Buf.keepsSize_some _ _ h

omit [BasicFonts] in
theorem keepsSize_blitWindows (windows : List WmWindow) :
    Buf.KeepsSize fun backBuf =>
      windows.foldlM (fun backBuf win => blitWindow backBuf info win) backBuf :=
  Buf.KeepsSize.foldlM fun _ _ => Buf.KeepsSize.foldlM fun _ _ => keepsSize_blitRow _ _

namespace WindowManager

variable {wm wm' : WindowManager} {fb fb' backBuf : Buf}

/-- A scene has the length of the back buffer and of the cached background. -/
theorem size_of_scene (hf : info.Fits) (h : wm.scene info = some backBuf) :
    wm.backBuf.size = wm.bgCache.size ∧ backBuf.size = wm.bgCache.size := by
  obtain ⟨buf₁, hcopy, h⟩ := Option.bind_eq_some_iff.1 h
  obtain ⟨buf₂, hbar, hwins⟩ := Option.bind_eq_some_iff.1 h
  have hsize : wm.backBuf.size = wm.bgCache.size := by
    by_contra hne
    rw [Buf.copyFromSlice_all_ne hne] at hcopy
    cases hcopy
  rw [Buf.copyFromSlice_all hsize] at hcopy
  cases hcopy
  obtain ⟨buf₂', hbar', hsize', -⟩ := paints_drawTaskbar hf wm.taskbarHeight wm.windows wm.focused
    wm.bgCache rfl
  cases hbar.symm.trans hbar'
  exact ⟨hsize, (keepsSize_blitWindows _ _ _ hwins).trans hsize'⟩

/-- Where a scene can be drawn, no offset overflows. -/
theorem offsetsFit_of_scene (h : wm.scene info = some backBuf) :
    ∀ win ∈ wm.windows, win.OffsetsFit info := by
  intro win hwin
  obtain ⟨buf₁, -, h⟩ := Option.bind_eq_some_iff.1 h
  obtain ⟨buf₂, -, hwins⟩ := Option.bind_eq_some_iff.1 h
  obtain ⟨buf, buf', hblit⟩ := exists_of_foldlM hwins hwin
  exact offsetsFit_of_blitWindow hblit

/-- The scene is the stack of the windows over the taskbar over the background. -/
theorem exists_scene (wm : WindowManager) (hf : info.Fits) (hsize : wm.backBuf.size = wm.bgCache.size)
    (hn : info.Holds wm.bgCache.size) (hv : ∀ win ∈ wm.windows, win.Valid info)
    (hfit : ∀ win ∈ wm.windows, win.OffsetsFit info) :
    ∃ tb backBuf, drawTaskbar wm.bgCache info wm.taskbarHeight wm.windows wm.focused = some tb ∧
      wm.scene info = some backBuf ∧ tb.size = wm.bgCache.size ∧ backBuf.size = wm.bgCache.size ∧
      ∀ p, info.OnScreen p → info.pixel backBuf p =
        match topmost wm.windows p with
        | some win => win.bufInfo.pixel win.buf (p.1 - win.x, p.2 - win.y)
        | none => info.pixel tb p := by
  obtain ⟨tb, hbar, htb, -⟩ := paints_drawTaskbar hf wm.taskbarHeight wm.windows wm.focused
    wm.bgCache rfl
  obtain ⟨backBuf, hwins, hback, hlook⟩ := paints_windows hf.width_le_stride hv hfit hn tb htb
  refine ⟨tb, backBuf, hbar, ?_, htb, hback, fun p hp => ?_⟩
  · rw [scene, Buf.copyFromSlice_all hsize]
    exact Option.bind_eq_some_iff.2 ⟨_, rfl, Option.bind_eq_some_iff.2 ⟨tb, hbar, hwins⟩⟩
  · have hp' := hlook p (hn p hp)
    rw [stack_layer] at hp'
    change info.pixel backBuf p = _ at hp'
    rw [hp']
    cases topmost wm.windows p <;> rfl

/-! ### Compositing -/

/-- The window manager after `composite`, apart from its saved background. -/
def composited (wm : WindowManager) (savedBg : Vector Color (CURSOR_W * CURSOR_H)) (backBuf : Buf) :
    WindowManager :=
  { wm with
    windows := wm.windows.map fun win => { win with dirty := false }
    cursor := { wm.cursor with savedBg, visible := true }
    backBuf
    needsComposite := false }

/-- **What `composite` does**: the scene is drawn, what lies under the sprite is saved, the sprite
is drawn over it, and the frame buffer becomes the result. -/
theorem exists_composite (hf : info.Fits) (hscene : wm.scene info = some backBuf)
    (ha : wm.cursor.Addressable) (hfb : fb.size = backBuf.size) :
    ∃ savedBg fb', wm.composite fb info = some (wm.composited savedBg fb', fb') ∧
      fb'.size = backBuf.size ∧
      (∀ sy < CURSOR_H, ∀ sx < CURSOR_W, savedBg[sy * CURSOR_W + sx]? =
        some (info.seen backBuf (asUsize wm.cursor.x + sx, asUsize wm.cursor.y + sy))) ∧
      ∀ p, info.Live backBuf.size p → info.pixel fb' p =
        (info.surface backBuf.size).apply (wm.cursor.spriteLayer p) (info.pixel backBuf p) := by
  obtain ⟨savedBg, hsave, hsaved⟩ := CursorState.exists_saveBackground hf ha backBuf
  obtain ⟨fb', hdraw, hsize, hlook⟩ := CursorState.paints_draw hf
    (ha.saved savedBg) backBuf rfl
  refine ⟨savedBg, fb', ?_, hsize, hsaved, hlook⟩
  have hdraw' : ({ wm.cursor with savedBg } : CursorState).draw backBuf info = some fb' := hdraw
  have hsize' : fb.size = fb'.size := hfb.trans hsize.symm
  simp only [composite, hscene, hsave, hdraw', Buf.copyFromSlice_all hsize', Option.bind_eq_bind,
    Option.bind_some, composited]

/-- A valid window manager can be composited. -/
theorem exists_composite_of_valid (wm : WindowManager) (fb : Buf) (hf : info.Fits)
    (hsize : wm.backBuf.size = wm.bgCache.size)
    (hn : info.Holds wm.bgCache.size) (hv : ∀ win ∈ wm.windows, win.Valid info)
    (hfit : ∀ win ∈ wm.windows, win.OffsetsFit info) (ha : wm.cursor.Addressable)
    (hfb : fb.size = wm.bgCache.size) :
    ∃ savedBg fb', wm.composite fb info = some (wm.composited savedBg fb', fb') ∧
      fb'.size = wm.bgCache.size := by
  obtain ⟨tb, backBuf, -, hscene, -, hback, -⟩ := exists_scene wm hf hsize hn hv hfit
  obtain ⟨savedBg, fb', hcomp, hfb', -⟩ := exists_composite hf hscene ha (hfb.trans hback.symm)
  exact ⟨savedBg, fb', hcomp, hfb'.trans hback⟩

/-- What a successful `composite` needed. -/
theorem scene_of_composite (hf : info.Fits) (h : wm.composite fb info = some (wm', fb')) :
    ∃ backBuf, wm.scene info = some backBuf ∧ wm.cursor.Addressable ∧ fb.size = backBuf.size := by
  obtain ⟨backBuf, hscene, h⟩ := Option.bind_eq_some_iff.1 h
  obtain ⟨cursor, hsave, h⟩ := Option.bind_eq_some_iff.1 h
  obtain ⟨buf, hdraw, h⟩ := Option.bind_eq_some_iff.1 h
  obtain ⟨flip, hcopy, -⟩ := Option.bind_eq_some_iff.1 h
  have ha := CursorState.addressable_of_saveBackground hsave
  refine ⟨backBuf, hscene, ha, ?_⟩
  obtain ⟨savedBg, hsave', -⟩ := CursorState.exists_saveBackground hf ha backBuf
  cases hsave.symm.trans hsave'
  obtain ⟨buf', hdraw', hsize', -⟩ := CursorState.paints_draw hf
    (ha.saved savedBg) backBuf rfl
  cases hdraw.symm.trans hdraw'
  by_contra hne
  rw [Buf.copyFromSlice_all_ne (by rw [show buf.size = backBuf.size from hsize']; exact hne)] at hcopy
  cases hcopy

/-- What a successful `composite` leaves behind. -/
theorem composited_of_composite (hf : info.Fits) (h : wm.composite fb info = some (wm', fb')) :
    ∃ savedBg, wm' = wm.composited savedBg fb' := by
  obtain ⟨backBuf, hscene, ha, hfb⟩ := scene_of_composite hf h
  obtain ⟨savedBg, fb'', hcomp, -⟩ := exists_composite hf hscene ha hfb
  cases h.symm.trans hcomp
  exact ⟨savedBg, rfl⟩

/-- **Compositing is the painter's algorithm.**  On a frame buffer without line padding, with
windows as `create_window` makes them, `composite` succeeds; every pixel under a cell of the
cursor has the colour of the cell, and every other pixel has the bytes of the last window in the
list that contains it, or those of the taskbar over the cached background. -/
theorem composite_painter (hf : info.Fits) (hstride : info.stride = info.width)
    (hback : wm.backBuf.size = info.width * info.height * info.bytesPerPixel)
    (hcache : wm.bgCache.size = wm.backBuf.size) (hfb : fb.size = wm.backBuf.size)
    (hv : ∀ win ∈ wm.windows, win.Valid info) (hfit : ∀ win ∈ wm.windows, win.OffsetsFit info)
    (ha : wm.cursor.Addressable) :
    ∃ wm' fb' tb, wm.composite fb info = some (wm', fb') ∧
      drawTaskbar wm.bgCache info wm.taskbarHeight wm.windows wm.focused = some tb ∧
      ∀ p, info.OnScreen p → info.offset p + info.bytesPerPixel ≤ fb'.size ∧
        match wm.cursor.spriteLayer p with
        | some c => readPixel fb' info p.1 p.2 = some c
        | none => info.pixel fb' p =
          match topmost wm.windows p with
          | some win => win.bufInfo.pixel win.buf (p.1 - win.x, p.2 - win.y)
          | none => info.pixel tb p := by
  have hn : info.Holds wm.bgCache.size := by
    rw [hcache, hback]
    exact FrameBufferInfo.holds_of_stride_eq hstride
  obtain ⟨tb, backBuf, hbar, hscene, htb, hsize, hshow⟩ := exists_scene wm hf hcache.symm hn hv hfit
  obtain ⟨savedBg, fb', hcomp, hsize', -, hpix⟩ := exists_composite hf hscene ha
    (show fb.size = backBuf.size by omega)
  refine ⟨_, fb', tb, hcomp, hbar, fun p hp => ?_⟩
  have hlive : info.Live backBuf.size p := hsize ▸ hn p hp
  refine ⟨hsize' ▸ hlive.2, ?_⟩
  have hp' := hpix p hlive
  cases hsprite : wm.cursor.spriteLayer p with
  | some c =>
    have hcolor := FrameBufferInfo.color_of_look hf.formatFits hp'
    rw [CursorState.map_shown_spriteLayer, hsprite, Option.getD_some] at hcolor
    dsimp only
    rw [FrameBufferInfo.readPixel_of_live hf (hsize'.symm ▸ hlive), hcolor]
  | none =>
    rw [hsprite] at hp'
    exact hp'.trans (hshow p hp)

/-- A screen of two lines of two pixels. -/
def twoByTwo : FrameBufferInfo := ⟨2, 2, .rgb, 3, 2⟩

/-- A white window over the right end of a wider black one, and the cursor in the left upper
corner. -/
def overlapping : WindowManager where
  windows := [
    ⟨0, 0, 0, 2, 1, Vector.replicate _ 0, 0, Nat.zero_le _, #[0, 0, 0, 0, 0, 0],
      { twoByTwo with width := 2, height := 1, stride := 2 }, none, true, 0⟩,
    ⟨1, 1, 0, 1, 1, Vector.replicate _ 0, 0, Nat.zero_le _, #[0xFF, 0xFF, 0xFF],
      { twoByTwo with width := 1, height := 1, stride := 1 }, none, true, 0⟩]
  focused := some 0
  nextId := 2
  cursor := ⟨0, 0, 2, 2, Vector.replicate _ .black, false⟩
  screenInfo := twoByTwo
  taskbarHeight := TASKBAR_HEIGHT
  taskbarHeight_eq := rfl
  needsComposite := true
  backBuf := Array.replicate 12 0
  bgCache := Array.replicate 12 0x20

omit [BasicFonts] in
theorem fits_twoByTwo : twoByTwo.Fits :=
  .of_le (by decide) (Nat.le_refl 3) (by decide) (by decide) (by decide)

omit [BasicFonts] in
theorem valid_overlapping : ∀ win ∈ overlapping.windows, win.Valid twoByTwo := by
  simp only [overlapping, List.forall_mem_cons]
  exact ⟨⟨rfl, rfl, by decide, by decide, by decide⟩,
    ⟨rfl, rfl, by decide, by decide, by decide⟩, nofun⟩

omit [BasicFonts] in
theorem offsetsFit_overlapping : ∀ win ∈ overlapping.windows, win.OffsetsFit twoByTwo := by
  simp only [overlapping, List.forall_mem_cons]
  refine ⟨fun row hrow => ?_, fun row hrow => ?_, nofun⟩ <;>
    simp only [twoByTwo, USIZE_MAX] at hrow ⊢ <;> omega

omit [BasicFonts] in
theorem composite_painter_overlapping :
    ∃ wm' fb', @composite BasicFonts.sample overlapping (Array.replicate 12 0) twoByTwo =
        some (wm', fb') ∧
      readPixel fb' twoByTwo 0 0 = some .black ∧ twoByTwo.pixel fb' (1, 0) 0 = some 0xFF := by
  let _ := BasicFonts.sample
  obtain ⟨wm', fb', tb, hcomp, -, hshow⟩ := overlapping.composite_painter
    fits_twoByTwo rfl rfl rfl (show (Array.replicate 12 0 : Buf).size = _ from rfl)
    valid_overlapping offsetsFit_overlapping ⟨by decide, by decide⟩
  exact ⟨wm', fb', hcomp, (hshow (0, 0) (by decide)).2,
    congrFun (hshow (1, 0) (by decide)).2 0⟩

end WindowManager

end ROs
