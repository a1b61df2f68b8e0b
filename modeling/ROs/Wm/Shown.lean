import ROs.Wm.Statics

/-!
# The cursor fast path agrees with full compositing

`handle_mouse` does not repaint the screen when only the cursor moves: it puts the saved colours
back, moves the cursor, saves what lies under its new place and draws it there.

`WindowManager.Clean` says that the frame buffer shows the scene with the cursor over it, and that
the saved colours are those of the scene under the sprite.  `composite` establishes it
(`clean_of_composite`), the fast path keeps it (`Clean.handleMouse`), and a clean screen is the
one a fresh `composite` would show (`Clean.shown`).

* `Statics.handleMouse_shown` : **after any sequence of mouse events the screen shows what a
  fresh composite would show**, and the cursor is on the screen.
-/

namespace ROs

variable [BasicFonts] {info : FrameBufferInfo}

/-! ### What a scene depends on -/

/-- `win'` is `win` with other pixels, another console or another dirty flag. -/
def WmWindow.SameFrame (win win' : WmWindow) : Prop :=
  ∃ buf console dirty, win' = { win with buf, console, dirty }

/-- The taskbar shows the titles of the windows only. -/
theorem drawLabels_congr (buf : Buf) (tbY taskbarHeight : ℕ) (focused : Option ℕ) (lx : ℕ)
    {windows windows' : List WmWindow} (h : List.Forall₂ WmWindow.SameFrame windows windows') :
    drawLabels buf info tbY taskbarHeight focused lx windows' =
      drawLabels buf info tbY taskbarHeight focused lx windows := by
  induction h generalizing buf lx with
  | nil => rfl
  | cons hwin _ ih =>
    obtain ⟨buf', console, dirty, rfl⟩ := hwin
    simp only [drawLabels, ih]
    rfl

namespace WindowManager

variable {wm wm' : WindowManager} {fb fb' backBuf : Buf}

/-- The scene depends on the length of the back buffer only, not on what it holds. -/
theorem scene_congr (h : wm.backBuf.size = wm'.backBuf.size) (hcache : wm.bgCache = wm'.bgCache)
    (hbar : wm.taskbarHeight = wm'.taskbarHeight) (hfocus : wm.focused = wm'.focused)
    (hwindows : wm.windows = wm'.windows) : wm.scene info = wm'.scene info := by
  unfold scene
  rw [← hcache, ← hbar, ← hfocus, ← hwindows]
  by_cases hsize : wm.backBuf.size = wm.bgCache.size
  · rw [Buf.copyFromSlice_all hsize, Buf.copyFromSlice_all (h.symm.trans hsize)]
  · rw [Buf.copyFromSlice_all_ne hsize, Buf.copyFromSlice_all_ne (h ▸ hsize)]

/-- Compositing again draws the same scene. -/
theorem scene_composited {savedBg : Vector Color (CURSOR_W * CURSOR_H)}
    (h : backBuf.size = wm.backBuf.size) :
    (wm.composited savedBg backBuf).scene info = wm.scene info := by
  have hsame : List.Forall₂ WmWindow.SameFrame wm.windows
      (wm.windows.map fun win => { win with dirty := false }) :=
    List.forall₂_map_right_iff.2 (List.forall₂_same.2 fun win _ => ⟨_, _, _, rfl⟩)
  rw [← scene_congr (show ({ wm with backBuf } : WindowManager).backBuf.size = _ from h) rfl rfl rfl
    rfl]
  simp only [scene, composited, drawTaskbar, drawLabels_congr _ _ _ _ _ hsame, List.foldlM_map]
  rfl

/-! ### Clean screens -/

/-- The frame buffer shows the scene `backBuf` and the cursor over it. -/
structure Clean (info : FrameBufferInfo) (wm : WindowManager) (fb backBuf : Buf) : Prop where
  scene_eq : wm.scene info = some backBuf
  size_eq : fb.size = backBuf.size
  addressable : wm.cursor.Addressable
  visible : wm.cursor.visible = true
  /-- The saved colours are those of the scene under the sprite. -/
  saved : ∀ sy < CURSOR_H, ∀ sx < CURSOR_W, wm.cursor.savedBg[sy * CURSOR_W + sx]? =
    some (info.seen backBuf (asUsize wm.cursor.x + sx, asUsize wm.cursor.y + sy))
  seen_eq : ∀ p, info.Live backBuf.size p →
    info.seen fb p = (wm.cursor.spriteLayer p).getD (info.seen backBuf p)

/-- **`composite` leaves a clean screen.** -/
theorem clean_of_composite (hf : info.Fits) (h : wm.composite fb info = some (wm', fb')) :
    ∃ backBuf, Clean info wm' fb' backBuf ∧ wm.scene info = some backBuf := by
  obtain ⟨backBuf, hscene, ha, hfb⟩ := scene_of_composite hf h
  obtain ⟨savedBg, fb'', hcomp, hsize, hsaved, hlook⟩ := exists_composite hf hscene ha hfb
  cases h.symm.trans hcomp
  obtain ⟨hback, hcache⟩ := size_of_scene hf hscene
  refine ⟨backBuf, ?_, hscene⟩
  exact {
    scene_eq := (scene_composited (by omega)).trans hscene
    size_eq := hsize
    addressable := ⟨ha.x_le, ha.y_le⟩
    visible := rfl
    saved := hsaved
    seen_eq := fun p hp => by
      have hcolor := FrameBufferInfo.color_of_look hf.formatFits (hlook p hp)
      rw [CursorState.map_shown_spriteLayer] at hcolor
      rw [FrameBufferInfo.seen, FrameBufferInfo.seen, hsize, if_pos hp, if_pos hp, hcolor]
      rfl }

/-- The frame buffer shows what a fresh `composite` would show. -/
def Shown (info : FrameBufferInfo) (wm : WindowManager) (fb : Buf) : Prop :=
  ∃ wm' fresh, wm.composite fb info = some (wm', fresh) ∧
    ∀ p, info.OnScreen p → readPixel fb info p.1 p.2 = readPixel fresh info p.1 p.2

/-- **A clean screen shows what a fresh composite would show.** -/
theorem Clean.shown (hf : info.Fits) (h : Clean info wm fb backBuf) : Shown info wm fb := by
  obtain ⟨savedBg, fresh, hcomp, hsize, -, hlook⟩ :=
    exists_composite hf h.scene_eq h.addressable h.size_eq
  refine ⟨_, fresh, hcomp, fun p _ => ?_⟩
  rw [FrameBufferInfo.readPixel_eq_seen hf,
    FrameBufferInfo.readPixel_eq_seen hf]
  by_cases hp : info.Live backBuf.size p
  · have hcolor := FrameBufferInfo.color_of_look hf.formatFits (hlook p hp)
    rw [CursorState.map_shown_spriteLayer] at hcolor
    rw [h.seen_eq p hp, FrameBufferInfo.seen, FrameBufferInfo.seen, hsize, if_pos hp, if_pos hp,
      hcolor]
  · rw [FrameBufferInfo.seen, FrameBufferInfo.seen, h.size_eq, hsize, if_neg hp, if_neg hp]

/-! ### The fast path -/

/-- Putting the saved colours back uncovers the scene. -/
theorem Clean.restore (hf : info.Fits) (h : Clean info wm fb backBuf) :
    ∃ fb₁, wm.cursor.restoreBackground fb info = some fb₁ ∧ fb₁.size = backBuf.size ∧
      ∀ p, info.seen fb₁ p = info.seen backBuf p := by
  obtain ⟨fb₁, hrestore, hsize, hseen⟩ := FrameBufferInfo.exists_seen_of_paints hf.formatFits
    (CursorState.paints_restoreBackground hf h.addressable h.visible) h.size_eq
  refine ⟨fb₁, hrestore, hsize, fun p => ?_⟩
  by_cases hp : info.Live backBuf.size p
  · rw [hseen p hp, h.seen_eq p hp]
    unfold CursorState.cellLayer CursorState.spriteLayer CursorState.cellLayer
    split
    · rename_i hin
      unfold CursorState.savedCell
      by_cases hcell : spriteCell (p.2 - asUsize wm.cursor.y) (p.1 - asUsize wm.cursor.x) = 0
      · -- a transparent cell is neither drawn nor restored
        rw [spriteColor_eq_none.2 hcell, if_neg (fun hne => hne hcell)]
        rfl
      · rw [if_pos hcell, h.saved _ (by omega) _ (by omega),
          show asUsize wm.cursor.x + (p.1 - asUsize wm.cursor.x) = p.1 by omega,
          show asUsize wm.cursor.y + (p.2 - asUsize wm.cursor.y) = p.2 by omega]
        simp
    · rfl
  · rw [FrameBufferInfo.seen, FrameBufferInfo.seen, hsize, if_neg hp, if_neg hp]

/-- **The fast path keeps the screen clean**: an event that does not ask for a composite leaves
the same scene with the cursor at its new place. -/
theorem Clean.handleMouse (hf : info.Fits) {event : MouseEvent}
    (hclean : wm.needsComposite = false → ∃ backBuf, Clean info wm fb backBuf)
    (h : wm.handleMouse event fb info = some (wm', fb')) (hn : wm'.needsComposite = false) :
    ∃ backBuf, Clean info wm' fb' backBuf := by
  obtain ⟨fb₁, cursor, hrestore, -, hcases⟩ := handleMouse_eq_some h
  rcases hcases with ⟨windows, focused, -, rfl, rfl⟩ | ⟨hfast, cursor', hsave, hdraw, rfl⟩
  · cases hn
  · obtain ⟨backBuf, hc⟩ := hclean hfast
    obtain ⟨fb₁', hrestore', hsize₁, hseen₁⟩ := hc.restore hf
    cases hrestore.symm.trans hrestore'
    have ha := CursorState.addressable_of_saveBackground hsave
    obtain ⟨savedBg, hsave', hsaved⟩ :=
      CursorState.exists_saveBackground hf ha fb₁
    cases hsave.symm.trans hsave'
    obtain ⟨fb₂, hdraw', hsize₂, hseen₂⟩ := CursorState.exists_draw hf
      (ha.saved savedBg) fb₁
    cases hdraw.symm.trans hdraw'
    refine ⟨backBuf, ?_⟩
    exact {
      scene_eq := hc.scene_eq
      size_eq := hsize₂.trans hsize₁
      addressable := ⟨ha.x_le, ha.y_le⟩
      visible := rfl
      saved := fun sy hsy sx hsx => by
        rw [← hseen₁]
        exact hsaved sy hsy sx hsx
      seen_eq := fun p hp => by
        rw [hseen₂ p (hsize₁.symm ▸ hp), hseen₁]
        rfl }

/-! ### Mouse events -/

/-- What holds between two mouse events. -/
structure AtRest (info : FrameBufferInfo) (wm : WindowManager) (fb : Buf) : Prop where
  needsComposite_eq : wm.needsComposite = false
  clean : ∃ backBuf, Clean info wm fb backBuf
  screenWidth_eq : wm.cursor.screenWidth = asI32 info.width
  screenHeight_eq : wm.cursor.screenHeight = asI32 info.height

/-- What makes sure that no mouse event overflows: windows that end within `usize`, buffers that
hold every pixel, and a cursor on a screen that leaves room for one movement in `i32`. -/
structure Operable (info : FrameBufferInfo) (wm : WindowManager) : Prop where
  valid : ∀ win ∈ wm.windows, win.Valid info
  right : ∀ win ∈ wm.windows, win.x + win.width ≤ USIZE_MAX
  bottom : ∀ win ∈ wm.windows, win.y + win.height ≤ USIZE_MAX
  holds : info.Holds wm.backBuf.size
  inside : wm.cursor.Inside
  width_le : info.width ≤ 2 ^ 31 - 2 ^ 15
  height_le : info.height ≤ 2 ^ 31 - 2 ^ 15

omit [BasicFonts] in
theorem Operable.composited (h : Operable info wm) {savedBg : Vector Color (CURSOR_W * CURSOR_H)}
    (hsize : backBuf.size = wm.backBuf.size) : Operable info (wm.composited savedBg backBuf) := by
  have hclear : ∀ P : WmWindow → Prop, (∀ win ∈ wm.windows, P { win with dirty := false }) →
      ∀ win ∈ (wm.composited savedBg backBuf).windows, P win := fun P hP win hwin => by
    obtain ⟨win', hwin', rfl⟩ := List.mem_map.1 hwin
    exact hP win' hwin'
  have hin := h.inside
  exact {
    valid := hclear _ fun win hwin => by
      obtain ⟨h1, h2, h3, h4, h5⟩ := h.valid win hwin
      exact ⟨h1, h2, h3, h4, h5⟩
    right := hclear _ h.right
    bottom := hclear _ h.bottom
    holds := by
      change info.Holds backBuf.size
      rw [hsize]
      exact h.holds
    inside := ⟨hin.x_nonneg, hin.x_lt, hin.y_nonneg, hin.y_lt, hin.width_lt, hin.height_lt⟩
    width_le := h.width_le
    height_le := h.height_le }

theorem atRest_of_composite (hf : info.Fits) (h : wm.composite fb info = some (wm', fb'))
    (hw : wm.cursor.screenWidth = asI32 info.width)
    (hh : wm.cursor.screenHeight = asI32 info.height) : AtRest info wm' fb' := by
  obtain ⟨savedBg, rfl⟩ := composited_of_composite hf h
  obtain ⟨backBuf, hclean, -⟩ := clean_of_composite hf h
  exact ⟨rfl, ⟨backBuf, hclean⟩, hw, hh⟩

/-- **One mouse event** of the module. -/
theorem AtRest.step (hf : info.Fits) (h : AtRest info wm fb) {event : MouseEvent} {st : Statics}
    (hst : (Statics.mk (some wm) (some ⟨fb, info⟩)).handleMouse event = some st) :
    ∃ wm' fb', st = ⟨some wm', some ⟨fb', info⟩⟩ ∧ AtRest info wm' fb' ∧ wm'.cursor.Inside := by
  obtain ⟨wm₁, buf₁, wm', buf', hmouse, rfl, hcomp⟩ := Statics.handleMouse_eq_some hst
  obtain ⟨fb₁, cursor, -, hdelta, hcases⟩ := handleMouse_eq_some hmouse
  obtain ⟨hin, hcur⟩ := CursorState.applyDelta_eq_some (by rw [h.screenWidth_eq]; exact asI32_lt _)
    (by rw [h.screenHeight_eq]; exact asI32_lt _) hdelta
  have hw : cursor.screenWidth = asI32 info.width := by rw [hcur]; exact h.screenWidth_eq
  have hh : cursor.screenHeight = asI32 info.height := by rw [hcur]; exact h.screenHeight_eq
  rcases hcomp with ⟨hneeds, hcomp⟩ | ⟨hneeds, rfl, rfl⟩
  · rcases hcases with ⟨windows, focused, -, rfl, rfl⟩ | ⟨hfast, cursor', -, -, rfl⟩
    · have hrest := atRest_of_composite hf hcomp hw hh
      obtain ⟨savedBg, rfl⟩ := composited_of_composite hf hcomp
      exact ⟨_, buf', rfl, hrest, hin.x_nonneg, hin.x_lt, hin.y_nonneg, hin.y_lt, hin.width_lt,
        hin.height_lt⟩
    · exact absurd (hfast.symm.trans hneeds) (by decide)
  · have hclean := Clean.handleMouse hf (fun _ => h.clean) hmouse hneeds
    rcases hcases with ⟨windows, focused, -, rfl, rfl⟩ | ⟨hfast, cursor', hsave, hdraw, rfl⟩
    · cases hneeds
    · obtain ⟨savedBg, hsave', -⟩ := CursorState.exists_saveBackground hf
        (CursorState.addressable_of_saveBackground hsave) fb₁
      cases hsave.symm.trans hsave'
      exact ⟨_, _, rfl, ⟨hneeds, hclean, hw, hh⟩, hin.x_nonneg, hin.x_lt, hin.y_nonneg, hin.y_lt,
        hin.width_lt, hin.height_lt⟩

/-- **A mouse event never fails**, as long as it cannot overflow. -/
theorem AtRest.exists_step (hf : info.Fits) (h : AtRest info wm fb) (ho : Operable info wm)
    (event : MouseEvent) :
    ∃ wm' fb', (Statics.mk (some wm) (some ⟨fb, info⟩)).handleMouse event =
      some ⟨some wm', some ⟨fb', info⟩⟩ ∧ Operable info wm' := by
  obtain ⟨backBuf, hclean⟩ := h.clean
  obtain ⟨hback, hcache⟩ := size_of_scene hf hclean.scene_eq
  obtain ⟨wm₁, buf₁, hmouse, hsize⟩ := exists_handleMouse hf ho.inside
    (by rw [h.screenWidth_eq]; exact Int.le_trans (asI32_le _) (by have := ho.width_le; omega))
    (by rw [h.screenHeight_eq]; exact Int.le_trans (asI32_le _) (by have := ho.height_le; omega))
    (fun win hwin => (ho.valid win hwin).fits hf.formatFits)
    (fun win hwin => ⟨ho.right win hwin, ho.bottom win hwin⟩) event fb
  obtain ⟨fb₁, cursor, -, hdelta, hcases⟩ := handleMouse_eq_some hmouse
  obtain ⟨hin, -⟩ := CursorState.applyDelta_eq_some ho.inside.width_lt ho.inside.height_lt hdelta
  rcases hcases with ⟨windows, focused, hred, rfl, rfl⟩ | ⟨hfast, cursor', hsave, hdraw, rfl⟩
  · have hrect : ∀ P : Rect → Prop, (∀ win ∈ wm.windows, P win.rect) →
        ∀ win ∈ windows, P win.rect := fun P => hred _ WmWindow.chromeStable_of_rect
    have ho₁ : Operable info { wm with windows, focused, cursor, needsComposite := true } := {
      valid := hred _ (WmWindow.chromeStable_valid hf.formatFits) ho.valid
      right := hrect (fun r => r.x + r.width ≤ USIZE_MAX) ho.right
      bottom := hrect (fun r => r.y + r.height ≤ USIZE_MAX) ho.bottom
      holds := ho.holds
      inside := hin
      width_le := ho.width_le
      height_le := ho.height_le }
    obtain ⟨savedBg, fb', hcomp, hfb'⟩ := exists_composite_of_valid
      { wm with windows, focused, cursor, needsComposite := true } buf₁ hf hback
      (hback ▸ ho.holds) ho₁.valid
      (hred _ WmWindow.chromeStable_offsetsFit (offsetsFit_of_scene hclean.scene_eq))
      hin.addressable (hsize.trans (hclean.size_eq.trans hcache))
    exact ⟨_, fb', Statics.handleMouse_of_composite hmouse rfl hcomp,
      ho₁.composited (hfb'.trans hback.symm)⟩
  · obtain ⟨savedBg, hsave', -⟩ := CursorState.exists_saveBackground hf
      (CursorState.addressable_of_saveBackground hsave) fb₁
    cases hsave.symm.trans hsave'
    exact ⟨_, buf₁, Statics.handleMouse_of_fast hmouse hfast, ho.valid, ho.right, ho.bottom,
      ho.holds, ⟨hin.x_nonneg, hin.x_lt, hin.y_nonneg, hin.y_lt, hin.width_lt, hin.height_lt⟩,
      ho.width_le, ho.height_le⟩

end WindowManager

namespace Statics

variable {wm wm₀ : WindowManager} {fb fb₀ : Buf}

open WindowManager

/-- **A run of mouse events** of the module. -/
theorem handleMouse_run (hf : info.Fits) (h : AtRest info wm fb) {events : List MouseEvent}
    {st : Statics} (hst : events.foldlM handleMouse ⟨some wm, some ⟨fb, info⟩⟩ = some st) :
    ∃ wm' fb', st = ⟨some wm', some ⟨fb', info⟩⟩ ∧ AtRest info wm' fb' ∧
      (events ≠ [] ∨ wm.cursor.Inside → wm'.cursor.Inside) := by
  induction events generalizing wm fb with
  | nil =>
    cases hst
    exact ⟨wm, fb, rfl, h, fun hin => hin.resolve_left fun hne => hne rfl⟩
  | cons event events ih =>
    rw [List.foldlM_cons] at hst
    obtain ⟨st₁, hstep, hst⟩ := Option.bind_eq_some_iff.1 hst
    obtain ⟨wm₁, fb₁, rfl, h₁, hin₁⟩ := h.step hf hstep
    obtain ⟨wm', fb', rfl, h', hin'⟩ := ih h₁ hst
    exact ⟨wm', fb', rfl, h', fun _ => hin' (.inr hin₁)⟩

theorem exists_handleMouse_run (hf : info.Fits) (h : AtRest info wm fb) (ho : Operable info wm)
    (events : List MouseEvent) :
    ∃ st, events.foldlM handleMouse ⟨some wm, some ⟨fb, info⟩⟩ = some st := by
  induction events generalizing wm fb with
  | nil => exact ⟨_, rfl⟩
  | cons event events ih =>
    obtain ⟨wm₁, fb₁, hstep, ho₁⟩ := h.exists_step hf ho event
    obtain ⟨wm₂, fb₂, heq, h₁, -⟩ := h.step hf hstep
    cases heq
    obtain ⟨st, hst⟩ := ih h₁ ho₁
    exact ⟨st, by rw [List.foldlM_cons, hstep]; exact hst⟩

/-- **The cursor fast path agrees with full compositing.**  Right after a composite, feed any
sequence of mouse events to `handle_mouse`: the screen then shows at every point what a fresh
composite would show, and the cursor is on the screen.  No event fails, as long as none can
overflow. -/
theorem handleMouse_shown (hf : info.Fits) (hcomp : wm₀.composite fb₀ info = some (wm, fb))
    (hw : wm.cursor.screenWidth = asI32 info.width)
    (hh : wm.cursor.screenHeight = asI32 info.height) :
    (∀ (events : List MouseEvent) st, events.foldlM handleMouse ⟨some wm, some ⟨fb, info⟩⟩ = some st →
      ∃ wm' fb', st = ⟨some wm', some ⟨fb', info⟩⟩ ∧ Shown info wm' fb' ∧
        (events ≠ [] ∨ wm.cursor.Inside → 0 ≤ wm'.cursor.x ∧ wm'.cursor.x < info.width ∧
          0 ≤ wm'.cursor.y ∧ wm'.cursor.y < info.height)) ∧
    (Operable info wm → ∀ events : List MouseEvent, ∃ st,
      events.foldlM handleMouse ⟨some wm, some ⟨fb, info⟩⟩ = some st) := by
  have hrest : AtRest info wm fb := by
    obtain ⟨savedBg, rfl⟩ := composited_of_composite hf hcomp
    exact atRest_of_composite hf hcomp hw hh
  refine ⟨fun events st hst => ?_, fun ho events => exists_handleMouse_run hf hrest ho events⟩
  obtain ⟨wm', fb', rfl, h', hin⟩ := handleMouse_run hf hrest hst
  obtain ⟨backBuf, hclean⟩ := h'.clean
  refine ⟨wm', fb', rfl, hclean.shown hf, fun hne => ?_⟩
  have hin' := hin hne
  have hx := Int.lt_of_lt_of_le hin'.x_lt (h'.screenWidth_eq ▸ asI32_le info.width)
  have hy := Int.lt_of_lt_of_le hin'.y_lt (h'.screenHeight_eq ▸ asI32_le info.height)
  exact ⟨hin'.x_nonneg, hx, hin'.y_nonneg, hy⟩

omit [BasicFonts] in
theorem operable_overlapping : Operable twoByTwo overlapping where
  valid := valid_overlapping
  right := by decide
  bottom := by decide
  holds := FrameBufferInfo.holds_of_stride_eq rfl
  inside := ⟨by decide, by decide, by decide, by decide, by decide, by decide⟩
  width_le := by decide
  height_le := by decide

omit [BasicFonts] in
theorem handleMouse_shown_overlapping :
    let _ := BasicFonts.sample
    ∃ wm fb, overlapping.composite (Array.replicate 12 0) twoByTwo = some (wm, fb) ∧
      ∀ events : List MouseEvent, ∃ wm' fb',
        events.foldlM handleMouse ⟨some wm, some ⟨fb, twoByTwo⟩⟩ =
          some ⟨some wm', some ⟨fb', twoByTwo⟩⟩ ∧ Shown twoByTwo wm' fb' := by
  intro _
  obtain ⟨savedBg, fb, hcomp, hfb⟩ := exists_composite_of_valid overlapping
    (Array.replicate 12 0) fits_twoByTwo rfl (FrameBufferInfo.holds_of_stride_eq rfl)
    valid_overlapping offsetsFit_overlapping ⟨by decide, by decide⟩ rfl
  obtain ⟨hrun, htotal⟩ := handleMouse_shown fits_twoByTwo hcomp
    (show (2 : ℤ) = asI32 2 by decide) (show (2 : ℤ) = asI32 2 by decide)
  refine ⟨_, fb, hcomp, fun events => ?_⟩
  obtain ⟨st, hst⟩ := htotal (operable_overlapping.composited hfb) events
  obtain ⟨wm', fb', rfl, hshown, -⟩ := hrun events st hst
  exact ⟨wm', fb', hst, hshown⟩

end Statics

end ROs
