import ROs.Wm.Focus

/-!
# Frame buffers with line padding

`WindowManager::new` sizes its two screen buffers by the width of the screen, while every access
to a pixel and the frame buffer itself go by the stride.

* `WindowManager.safe_iff_stride_eq` : **the buffers are right in every run if and only if lines
  have no padding**.
* `WindowManager.composite_padded` : with line padding the first `composite` panics.
-/

namespace ROs

variable [BasicFonts] {info : FrameBufferInfo}

omit [BasicFonts] in
theorem CursorState.keepsSize_paintCells (cx cy : ℕ) (cell : ℕ → ℕ → Option Color) :
    Buf.KeepsSize fun buf => paintCells buf info cx cy cell := by
  refine Buf.KeepsSize.foldlM fun sy _ => Buf.KeepsSize.foldlM fun sx _ => ?_
  split
  · intro buf buf' h
    obtain ⟨px, -, h⟩ := Option.bind_eq_some_iff.1 h
    obtain ⟨py, -, h⟩ := Option.bind_eq_some_iff.1 h
    exact keepsSize_putPixel _ _ _ _ _ h
  · exact Buf.keepsSize_some

omit [BasicFonts] in
theorem CursorState.keepsSize_restoreBackground (cur : CursorState) :
    Buf.KeepsSize fun buf => cur.restoreBackground buf info := by
  unfold restoreBackground
  split
  · exact keepsSize_paintCells _ _ _
  · exact Buf.keepsSize_some

/-- A frame buffer as the bootloader describes it: lines may end in padding, and the buffer holds
all lines. -/
structure BootFramebuffer (info : FrameBufferInfo) (fb : Buf) : Prop where
  width_pos : 1 ≤ info.width
  height_pos : 1 ≤ info.height
  width_le_stride : info.width ≤ info.stride
  format : info.pixelFormat = .rgb ∨ info.pixelFormat = .bgr
  bytesPerPixel_ge : 3 ≤ info.bytesPerPixel
  size_eq : fb.size = info.stride * info.height * info.bytesPerPixel
  /-- The length of a slice is a `usize`. -/
  size_le : fb.size ≤ USIZE_MAX

omit [BasicFonts] in
theorem BootFramebuffer.fits {fb : Buf} (h : BootFramebuffer info fb) : info.Fits := by
  have hle : ∀ a b : ℕ, 1 ≤ b → a ≤ a * b := fun a b hb => Nat.le_mul_of_pos_right a hb
  have hbpp := h.bytesPerPixel_ge
  have hsize := h.size_eq ▸ h.size_le
  have hstride := hle info.stride (info.height * info.bytesPerPixel)
    (Nat.mul_pos h.height_pos (by omega))
  have hheight := hle info.height (info.stride * info.bytesPerPixel)
    (Nat.mul_pos (Nat.lt_of_lt_of_le h.width_pos h.width_le_stride) (by omega))
  rw [← Nat.mul_assoc] at hstride
  rw [← Nat.mul_assoc, Nat.mul_comm info.height] at hheight
  refine .of_le h.width_le_stride ?_ (h.width_le_stride.trans (hstride.trans hsize))
    (hheight.trans hsize) hsize
  unfold FrameBufferInfo.FormatFits
  rcases h.format with hpf | hpf <;> rw [hpf] <;> exact hbpp

namespace WindowManager

variable {wm wm' : WindowManager} {fb fb' : Buf}

/-- The operations on a window manager and its frame buffer. -/
inductive Op where
  | createWindow (x y width height : UInt64) (title : String) (ownerTask : UInt64)
  | focusWindow (id : UInt64)
  | handleMouse (event : MouseEvent)
  | composite
  deriving Repr, DecidableEq

/-- One operation. -/
def perform (info : FrameBufferInfo) (self : WindowManager × Buf) :
    Op → Option (WindowManager × Buf)
  | .createWindow x y width height title ownerTask => do
    let (wm, _) ← self.1.createWindow x.toNat y.toNat width.toNat height.toNat title ownerTask.toNat
    some (wm, self.2)
  | .focusWindow id => do some (← self.1.focusWindow id.toNat, self.2)
  | .handleMouse event => self.1.handleMouse event self.2 info
  | .composite => self.1.composite self.2 info

/-- `composite` copies between buffers of equal length, and so panics only if an address
overflows; and both buffers of the window manager hold every pixel of the screen. -/
structure Safe (info : FrameBufferInfo) (wm : WindowManager) (fb : Buf) : Prop where
  background_eq : wm.backBuf.size = wm.bgCache.size
  flip_eq : fb.size = wm.backBuf.size
  composite_isSome : (∀ win ∈ wm.windows, win.OffsetsFit info) → wm.cursor.Addressable →
    (wm.composite fb info).isSome
  backBuf_holds : info.Holds wm.backBuf.size
  bgCache_holds : info.Holds wm.bgCache.size

/-- The lengths of the buffers in every run. -/
structure Sized (info : FrameBufferInfo) (wm : WindowManager) (fb : Buf) : Prop where
  screenInfo_eq : wm.screenInfo = info
  valid : ∀ win ∈ wm.windows, win.Valid info
  backBuf_size : wm.backBuf.size = info.width * info.height * info.bytesPerPixel
  bgCache_size : wm.bgCache.size = info.width * info.height * info.bytesPerPixel
  fb_size : fb.size = info.stride * info.height * info.bytesPerPixel

omit [BasicFonts] in
theorem sized_of_new (hb : BootFramebuffer info fb) (h : new info = some wm) : Sized info wm fb := by
  obtain ⟨hwindows, -, hinfo, -, -, hback, hcache⟩ := new_eq_some h
  exact ⟨hinfo, by rw [hwindows]; exact nofun, hback, hcache, hb.size_eq⟩

/-- **One operation** keeps all lengths. -/
theorem Sized.step (hf : info.Fits) (h : Sized info wm fb) {op : Op}
    (hop : perform info (wm, fb) op = some (wm', fb')) : Sized info wm' fb' := by
  cases op with
  | createWindow x y width height title ownerTask =>
    obtain ⟨⟨wm₁, id⟩, hcreate, hop⟩ := Option.bind_eq_some_iff.1 hop
    cases hop
    obtain ⟨win, -, -, hwin, rfl⟩ := createWindow_eq_some (h.screenInfo_eq ▸ hf.formatFits)
      (Nat.le_of_lt_succ width.toNat_lt) (Nat.le_of_lt_succ height.toNat_lt) hcreate
    refine ⟨h.screenInfo_eq, fun win' hwin' => ?_, h.backBuf_size, h.bgCache_size, h.fb_size⟩
    rcases List.mem_append.1 hwin' with hwin' | hwin'
    · exact h.valid win' hwin'
    · rw [List.mem_singleton.1 hwin']
      exact h.screenInfo_eq ▸ hwin
  | focusWindow id =>
    obtain ⟨wm₁, hfocus, hop⟩ := Option.bind_eq_some_iff.1 hop
    cases hop
    rcases focusWindow_eq_some hfocus with rfl | ⟨windows, hred, rfl⟩
    · exact h
    · exact ⟨h.screenInfo_eq, hred _ (WmWindow.chromeStable_valid hf.formatFits) h.valid,
        h.backBuf_size, h.bgCache_size, h.fb_size⟩
  | handleMouse event =>
    obtain ⟨fb₁, cursor, hrestore, -, hcases⟩ := handleMouse_eq_some hop
    have hsize₁ := CursorState.keepsSize_restoreBackground _ _ _ hrestore
    rcases hcases with ⟨windows, focused, hred, rfl, rfl⟩ | ⟨-, cursor', -, hdraw, rfl⟩
    · exact ⟨h.screenInfo_eq, hred _ (WmWindow.chromeStable_valid hf.formatFits) h.valid,
        h.backBuf_size, h.bgCache_size, hsize₁.trans h.fb_size⟩
    · exact ⟨h.screenInfo_eq, h.valid, h.backBuf_size, h.bgCache_size,
        (CursorState.keepsSize_paintCells _ _ _ _ _ hdraw).trans (hsize₁.trans h.fb_size)⟩
  | composite =>
    obtain ⟨backBuf, hscene, ha, hfb⟩ := scene_of_composite hf hop
    obtain ⟨savedBg, fb'', hcomp, hsize, -⟩ := exists_composite hf hscene ha hfb
    cases hop.symm.trans hcomp
    obtain ⟨hback, hcache⟩ := size_of_scene hf hscene
    refine ⟨h.screenInfo_eq, fun win hwin => ?_, hsize.trans (hcache.trans h.bgCache_size),
      h.bgCache_size, hsize.trans (hfb.symm.trans h.fb_size)⟩
    obtain ⟨win', hwin', rfl⟩ := List.mem_map.1 hwin
    obtain ⟨h1, h2, h3, h4, h5⟩ := h.valid win' hwin'
    exact ⟨h1, h2, h3, h4, h5⟩

/-- **A run** keeps all lengths. -/
theorem Sized.run (hf : info.Fits) {ops : List Op} (h : Sized info wm fb)
    (hrun : ops.foldlM (perform info) (wm, fb) = some (wm', fb')) : Sized info wm' fb' := by
  induction ops generalizing wm fb with
  | nil =>
    cases hrun
    exact h
  | cons op ops ih =>
    rw [List.foldlM_cons] at hrun
    obtain ⟨⟨wm₁, fb₁⟩, hop, hrun⟩ := Option.bind_eq_some_iff.1 hrun
    exact ih (h.step hf hop) hrun

/-- Without line padding these lengths are the right ones. -/
theorem Sized.safe (hf : info.Fits) (h : Sized info wm fb) (hstride : info.stride = info.width) :
    Safe info wm fb := by
  have hholds := FrameBufferInfo.holds_of_stride_eq hstride
  have hsize := h.backBuf_size.trans h.bgCache_size.symm
  have hfb : fb.size = wm.bgCache.size := by rw [h.fb_size, h.bgCache_size, hstride]
  refine ⟨hsize, hfb.trans hsize.symm, fun hfit ha => ?_, h.backBuf_size ▸ hholds,
    h.bgCache_size ▸ hholds⟩
  obtain ⟨savedBg, fb', hcomp, -⟩ := exists_composite_of_valid wm fb hf hsize
    (h.bgCache_size ▸ hholds) h.valid hfit ha hfb
  rw [hcomp]
  rfl

/-- **The buffers are right in every run if and only if lines have no padding.** -/
theorem safe_iff_stride_eq (hb : BootFramebuffer info fb) (hnew : new info = some wm) :
    (∀ (ops : List Op) wm' fb', ops.foldlM (perform info) (wm, fb) = some (wm', fb') →
      Safe info wm' fb') ↔ info.stride = info.width := by
  have hsized := sized_of_new hb hnew
  refine ⟨fun h => ?_, fun hstride ops wm' fb' hrun => (hsized.run hb.fits hrun).safe hb.fits hstride⟩
  -- before any operation
  have hflip := (h [] wm fb rfl).flip_eq
  rw [hsized.fb_size, hsized.backBuf_size] at hflip
  have hbpp := hb.bytesPerPixel_ge
  exact Nat.eq_of_mul_eq_mul_right hb.height_pos
    (Nat.eq_of_mul_eq_mul_right (by omega : 0 < info.bytesPerPixel) hflip)

/-- Two lines of two pixels, each followed by one pixel of padding. -/
def padded : FrameBufferInfo := ⟨2, 2, .rgb, 3, 3⟩

omit [BasicFonts] in
theorem bootFramebuffer_padded : BootFramebuffer padded (Array.replicate 18 0) :=
  ⟨by decide, by decide, by decide, .inl rfl, by decide, rfl, by decide⟩

omit [BasicFonts] in
theorem safe_iff_stride_eq_padded :
    let _ := BasicFonts.sample
    ∃ wm, new padded = some wm ∧ ¬ ∀ (ops : List Op) wm' fb',
      ops.foldlM (perform padded) (wm, Array.replicate 18 0) = some (wm', fb') →
        Safe padded wm' fb' := by
  intro _
  obtain ⟨wm, hnew⟩ := exists_new bootFramebuffer_padded.fits (by decide) (by decide)
  exact ⟨wm, hnew, fun h => absurd ((safe_iff_stride_eq bootFramebuffer_padded hnew).1 h) (by decide)⟩

omit [BasicFonts] in
/-- With line padding, the first `composite` panics, and the buffers miss the last pixel. -/
theorem composite_padded :
    let _ := BasicFonts.sample
    BootFramebuffer padded (Array.replicate 18 0) ∧ ∃ wm, new padded = some wm ∧
      wm.composite (Array.replicate 18 0) padded = none ∧
      wm.backBuf.size < padded.offset (1, 1) + padded.bytesPerPixel ∧
      wm.bgCache.size < padded.offset (1, 1) + padded.bytesPerPixel := by
  intro _
  refine ⟨bootFramebuffer_padded, ?_⟩
  have hf := bootFramebuffer_padded.fits
  obtain ⟨wm, hnew⟩ := exists_new hf (by decide) (by decide)
  obtain ⟨-, -, -, -, -, hback, hcache⟩ := new_eq_some hnew
  refine ⟨wm, hnew, ?_, by rw [hback]; decide, by rw [hcache]; decide⟩
  by_contra hne
  obtain ⟨⟨wm', fb'⟩, hcomp⟩ := Option.ne_none_iff_exists'.1 hne
  obtain ⟨backBuf, hscene, -, hfb⟩ := scene_of_composite hf hcomp
  rw [(size_of_scene hf hscene).2, hcache, Array.size_replicate] at hfb
  exact absurd hfb (by decide)

end WindowManager

end ROs
