import ROs.Wm.Painter

/-!
# Creating, focusing and clicking windows

One lemma for each operation on the window list: what it changes of the window manager, that it
raises `needs_composite` whenever it changes anything, that it keeps every property of windows
which redrawing the chrome keeps, and when it succeeds.
-/

namespace ROs

variable [BasicFonts] {info : FrameBufferInfo} {win win' : WmWindow}

namespace WmWindow

/-- A property of windows that redrawing the chrome keeps. -/
def ChromeStable (P : WmWindow → Prop) : Prop :=
  ∀ win win' focused, P win → win.drawChrome focused = some win' → P { win' with dirty := true }

/-- A redrawn window keeps everything but its pixels. -/
theorem drawChrome_eq_some {focused : Bool} (h : win.drawChrome focused = some win') :
    ∃ buf, win' = { win with buf } := by
  obtain ⟨buf, -, h⟩ := Option.bind_eq_some_iff.1 h
  cases h
  exact ⟨buf, rfl⟩

/-- A window is as valid after drawing its chrome. -/
theorem Valid.drawChrome (hv : win.Valid info) (hf : info.FormatFits) {focused : Bool}
    (h : win.drawChrome focused = some win') : win'.Valid info := by
  obtain ⟨buf, hchrome, hsize⟩ := exists_drawChrome win (hv.fits hf) focused
  cases h.symm.trans hchrome
  exact ⟨hv.bufInfo_eq, hsize.trans hv.size_eq, hsize ▸ hv.size_le, hv.width_le,
    hv.height_le⟩

theorem chromeStable_valid (hf : info.FormatFits) : ChromeStable (Valid info) := by
  intro win win' focused hv h
  obtain ⟨hinfo, hsize, hle, hwidth, hheight⟩ := hv.drawChrome hf h
  exact ⟨hinfo, hsize, hle, hwidth, hheight⟩

/-- Properties of the place and the size of a window are not affected by drawing. -/
theorem chromeStable_of_rect {P : Rect → Prop} : ChromeStable fun win => P win.rect := by
  intro win win' focused hP h
  obtain ⟨buf, rfl⟩ := drawChrome_eq_some h
  exact hP

theorem chromeStable_offsetsFit : ChromeStable (OffsetsFit info) := by
  intro win win' focused hfit h
  obtain ⟨buf, rfl⟩ := drawChrome_eq_some h
  exact hfit

/-- Drawing does not change the format of a window. -/
theorem chromeStable_fits : ChromeStable fun win => win.bufInfo.Fits := by
  intro win win' focused hfits h
  obtain ⟨buf, rfl⟩ := drawChrome_eq_some h
  exact hfits

/-- What a change of the focus does to the windows: they are reordered and redrawn, so every
property that redrawing keeps still holds of all of them. -/
def Redrawn (windows windows' : List WmWindow) : Prop :=
  ∀ P, ChromeStable P → (∀ win ∈ windows, P win) → ∀ win ∈ windows', P win

theorem Redrawn.refl (windows : List WmWindow) : Redrawn windows windows := fun _ _ h => h

theorem Redrawn.trans {windows₁ windows₂ windows₃ : List WmWindow} (h : Redrawn windows₁ windows₂)
    (h' : Redrawn windows₂ windows₃) : Redrawn windows₁ windows₃ :=
  fun P hP hall => h' P hP (h P hP hall)

theorem redrawn_of_perm {windows windows' : List WmWindow} (h : windows'.Perm windows) :
    Redrawn windows windows' := fun _ _ hall win hwin => hall win (h.mem_iff.1 hwin)

end WmWindow

namespace WindowManager

variable {wm wm' : WindowManager} {fb fb' : Buf}

omit [BasicFonts] in
/-- **A new window manager** has no windows, and two buffers of the length that the size of the
screen gives. -/
theorem new_eq_some (h : new info = some wm) :
    wm.windows = [] ∧ wm.nextId = 0 ∧ wm.screenInfo = info ∧ wm.needsComposite = true ∧
      wm.cursor = CursorState.new info.width info.height ∧
      wm.backBuf.size = info.width * info.height * info.bytesPerPixel ∧
      wm.bgCache.size = info.width * info.height * info.bytesPerPixel := by
  obtain ⟨bufSize, hsize, h⟩ := Option.bind_eq_some_iff.1 h
  obtain ⟨-, rfl⟩ := usize_eq_some.1 hsize
  obtain ⟨bgCache, hbg, h⟩ := Option.bind_eq_some_iff.1 h
  cases h
  exact ⟨rfl, rfl, rfl, rfl, rfl, Array.size_replicate,
    (keepsSize_drawBackground _ _ hbg).trans Array.size_replicate⟩

omit [BasicFonts] in
theorem exists_new (hf : info.Fits) (hh : info.height ≤ 16843009)
    (hsize : info.width * info.height * info.bytesPerPixel ≤ USIZE_MAX) :
    ∃ wm, new info = some wm := by
  obtain ⟨bgCache, hbg⟩ := exists_drawBackground hf hh
    (Array.replicate (info.width * info.height * info.bytesPerPixel) 0)
  exact ⟨_, Option.bind_eq_some_iff.2
    ⟨_, usize_of_le hsize, Option.bind_eq_some_iff.2 ⟨bgCache, hbg, rfl⟩⟩⟩

omit [BasicFonts] in
theorem titleLen_le (title : String) : min title.toUTF8.size MAX_TITLE ≤ MAX_TITLE :=
  Nat.min_le_right _ _

/-- The window that `create_window` makes, before its chrome is drawn. -/
def newWindow (wm : WindowManager) (x y width height : ℕ) (title : String) (ownerTask : ℕ) :
    WmWindow where
  id := wm.nextId
  x
  y
  width
  height
  title := titleBuf title
  titleLen := min title.toUTF8.size MAX_TITLE
  titleLen_le := titleLen_le title
  buf := Array.replicate (width * height * wm.screenInfo.bytesPerPixel) 0
  bufInfo := { wm.screenInfo with width, height, stride := width }
  console := none
  dirty := true
  ownerTask

omit [BasicFonts] in
/-- The new window has the format of the screen. -/
theorem valid_newWindow {wm : WindowManager} {width height : ℕ} (hw : width ≤ USIZE_MAX)
    (hh : height ≤ USIZE_MAX) (hsize : width * height * wm.screenInfo.bytesPerPixel ≤ USIZE_MAX)
    (x y : ℕ) (title : String) (ownerTask : ℕ) :
    (wm.newWindow x y width height title ownerTask).Valid wm.screenInfo :=
  ⟨rfl, Array.size_replicate, Nat.le_trans (Nat.le_of_eq Array.size_replicate) hsize, hw, hh⟩

/-- **What `create_window` does**: the new window is drawn, with the focus if there is none yet,
and appended. -/
theorem createWindow_draws {wm wm' : WindowManager} {x y width height ownerTask id : ℕ}
    {title : String} (h : wm.createWindow x y width height title ownerTask = some (wm', id)) :
    id = wm.nextId ∧ width * height * wm.screenInfo.bytesPerPixel ≤ USIZE_MAX ∧
      ∃ win, (wm.newWindow x y width height title ownerTask).drawChrome
          (wm.focused = none ∨ wm.focused = some wm.nextId) = some win ∧
        wm' = { wm with
          nextId := wm.nextId + 1
          windows := wm.windows ++ [win]
          focused := if wm.focused = none then some wm.nextId else wm.focused
          needsComposite := true } := by
  obtain ⟨bufSize, hsize, h⟩ := Option.bind_eq_some_iff.1 h
  obtain ⟨hle, rfl⟩ := usize_eq_some.1 hsize
  obtain ⟨win, hwin, h⟩ := Option.bind_eq_some_iff.1 h
  cases h
  exact ⟨rfl, hle, win, hwin, rfl⟩

/-- **`create_window`** appends one window of the given place and size. -/
theorem createWindow_eq_some (hf : wm.screenInfo.FormatFits) {x y width height ownerTask id : ℕ}
    {title : String} (hw : width ≤ USIZE_MAX) (hh : height ≤ USIZE_MAX)
    (h : wm.createWindow x y width height title ownerTask = some (wm', id)) :
    ∃ win : WmWindow, win.id = wm.nextId ∧ win.rect = ⟨x, y, width, height⟩ ∧
      win.Valid wm.screenInfo ∧ wm' = { wm with
        nextId := wm.nextId + 1
        windows := wm.windows ++ [win]
        focused := if wm.focused = none then some wm.nextId else wm.focused
        needsComposite := true } := by
  obtain ⟨-, hsize, win, hdraw, rfl⟩ := createWindow_draws h
  have hvalid := (valid_newWindow hw hh hsize x y title ownerTask).drawChrome hf hdraw
  obtain ⟨buf, rfl⟩ := WmWindow.drawChrome_eq_some hdraw
  exact ⟨_, rfl, rfl, hvalid, rfl⟩

theorem exists_createWindow (wm : WindowManager) (x y width height : ℕ) (title : String)
    (ownerTask : ℕ) (hf : wm.screenInfo.FormatFits) (hw : width ≤ USIZE_MAX) (hh : height ≤ USIZE_MAX)
    (hsize : width * height * wm.screenInfo.bytesPerPixel ≤ USIZE_MAX) :
    ∃ wm' id, wm.createWindow x y width height title ownerTask = some (wm', id) := by
  unfold createWindow
  dsimp only
  rw [usize_of_le hsize]
  obtain ⟨buf, hchrome, -⟩ := WmWindow.exists_drawChrome
    (wm.newWindow x y width height title ownerTask)
    ((valid_newWindow hw hh hsize x y title ownerTask).fits hf)
    (wm.focused = none ∨ wm.focused = some wm.nextId)
  exact ⟨_, _, Option.bind_eq_some_iff.2 ⟨_, rfl, Option.bind_eq_some_iff.2 ⟨_, hchrome, rfl⟩⟩⟩

theorem redrawn_of_redraw {focused : Bool} {id : ℕ} {windows windows' : List WmWindow}
    (h : redraw focused id windows = some windows') : WmWindow.Redrawn windows windows' := by
  intro P hP hall
  refine forall_of_modifyWindow h (fun win win' hwin hd => ?_) hall
  obtain ⟨win₁, hd₁, hd⟩ := Option.bind_eq_some_iff.1 hd
  cases hd
  exact hP win win₁ focused hwin hd₁

theorem redrawn_of_unfocus {focused : Option ℕ} {windows windows' : List WmWindow}
    (h : unfocus focused windows = some windows') : WmWindow.Redrawn windows windows' := by
  cases focused with
  | none =>
    cases h
    exact .refl windows
  | some oldId => exact redrawn_of_redraw h

/-- **`focus_window`** changes the window list and the focus only, and raises `needs_composite`
if it changes anything. -/
theorem focusWindow_eq_some {id : ℕ} (h : wm.focusWindow id = some wm') :
    wm' = wm ∨ ∃ windows, WmWindow.Redrawn wm.windows windows ∧
      wm' = { wm with windows, focused := some id, needsComposite := true } := by
  unfold focusWindow at h
  split at h
  · cases h
    exact .inl rfl
  · obtain ⟨windows₁, h₁, h⟩ := Option.bind_eq_some_iff.1 h
    obtain ⟨windows₂, h₂, h⟩ := Option.bind_eq_some_iff.1 h
    cases h
    exact .inr ⟨windows₂, (redrawn_of_unfocus h₁).trans
      ((WmWindow.redrawn_of_perm (bringToFront_perm id windows₁)).trans (redrawn_of_redraw h₂)), rfl⟩

theorem exists_redraw (windows : List WmWindow) (hfits : ∀ win ∈ windows, win.bufInfo.Fits)
    (focused : Bool) (id : ℕ) : ∃ windows', redraw focused id windows = some windows' := by
  refine exists_modifyWindow id fun win hwin => ?_
  obtain ⟨buf, hd, -⟩ := WmWindow.exists_drawChrome win (hfits win hwin) focused
  exact ⟨{ win with buf, dirty := true }, by rw [hd]; rfl⟩

/-- The focus can be given to any id. -/
theorem exists_focusWindow (hfits : ∀ win ∈ wm.windows, win.bufInfo.Fits) (id : ℕ) :
    ∃ wm', wm.focusWindow id = some wm' := by
  unfold focusWindow
  split
  · exact ⟨wm, rfl⟩
  · obtain ⟨windows₁, h₁⟩ : ∃ windows₁, unfocus wm.focused wm.windows = some windows₁ := by
      cases wm.focused with
      | none => exact ⟨_, rfl⟩
      | some oldId => exact exists_redraw wm.windows hfits false oldId
    obtain ⟨windows₂, h₂⟩ := exists_redraw (bringToFront id windows₁)
      ((redrawn_of_unfocus h₁).trans (WmWindow.redrawn_of_perm (bringToFront_perm id windows₁)) _
        WmWindow.chromeStable_fits hfits) true id
    exact ⟨_, Option.bind_eq_some_iff.2
      ⟨windows₁, h₁, Option.bind_eq_some_iff.2 ⟨windows₂, h₂, rfl⟩⟩⟩

/-! ### Clicks -/

/-- **A left click** changes the window list and the focus only, and raises `needs_composite` if
it changes anything. -/
theorem handleClick_eq_some (h : wm.handleClick = some wm') :
    wm' = wm ∨ ∃ windows focused, WmWindow.Redrawn wm.windows windows ∧
      wm' = { wm with windows, focused, needsComposite := true } := by
  unfold handleClick at h
  dsimp only at h
  split at h
  · obtain ⟨wm₁, hclick, h⟩ := Option.bind_eq_some_iff.1 h
    cases h
    unfold handleTaskbarClick at hclick
    dsimp only at hclick
    split at hclick
    · rcases focusWindow_eq_some hclick with rfl | ⟨windows, hw, rfl⟩
      · exact .inr ⟨_, _, .refl _, rfl⟩
      · exact .inr ⟨_, _, hw, rfl⟩
    · cases hclick
      exact .inr ⟨_, _, .refl _, rfl⟩
  · obtain ⟨hit, -, h⟩ := Option.bind_eq_some_iff.1 h
    cases hit with
    | none =>
      cases h
      exact .inl rfl
    | some id =>
      rcases focusWindow_eq_some h with rfl | ⟨windows, hw, rfl⟩
      · exact .inl rfl
      · exact .inr ⟨_, _, hw, rfl⟩

/-- **A mouse event** restores what was under the cursor and moves the cursor.  Then either the
screen has to be composited, or nothing but the cursor has changed and it is drawn at its new
place. -/
theorem handleMouse_eq_some {event : MouseEvent}
    (h : wm.handleMouse event fb info = some (wm', fb')) :
    ∃ fb₁ cursor, wm.cursor.restoreBackground fb info = some fb₁ ∧
      wm.cursor.applyDelta event.dx event.dy = some cursor ∧
      ((∃ windows focused, WmWindow.Redrawn wm.windows windows ∧ fb' = fb₁ ∧
          wm' = { wm with windows, focused, cursor, needsComposite := true }) ∨
        wm.needsComposite = false ∧ ∃ cursor', cursor.saveBackground fb₁ info = some cursor' ∧
          cursor'.draw fb₁ info = some fb' ∧
          wm' = { wm with cursor := { cursor' with visible := true } }) := by
  obtain ⟨fb₁, hrestore, h⟩ := Option.bind_eq_some_iff.1 h
  obtain ⟨cursor, hdelta, h⟩ := Option.bind_eq_some_iff.1 h
  obtain ⟨wm₁, hclick, h⟩ := Option.bind_eq_some_iff.1 h
  refine ⟨fb₁, cursor, hrestore, hdelta, ?_⟩
  have hcases : wm₁ = { wm with cursor } ∨ ∃ windows focused, WmWindow.Redrawn wm.windows windows ∧
      wm₁ = { wm with windows, focused, cursor, needsComposite := true } := by
    split at hclick
    · exact handleClick_eq_some hclick
    · cases hclick
      exact .inl rfl
  by_cases hneeds : wm₁.needsComposite = true
  · rw [if_pos hneeds] at h
    cases h
    left
    rcases hcases with rfl | ⟨windows, focused, hw, rfl⟩
    · exact ⟨wm.windows, wm.focused, .refl _, rfl, by
        rw [show wm.needsComposite = true from hneeds]⟩
    · exact ⟨windows, focused, hw, rfl, rfl⟩
  · rw [if_neg hneeds] at h
    obtain ⟨cursor', hsave, h⟩ := Option.bind_eq_some_iff.1 h
    obtain ⟨fb₂, hdraw, h⟩ := Option.bind_eq_some_iff.1 h
    cases h
    right
    rcases hcases with rfl | ⟨windows, focused, hw, rfl⟩
    · exact ⟨Bool.not_eq_true _ ▸ hneeds, cursor', hsave, hdraw, rfl⟩
    · exact absurd rfl hneeds

omit [BasicFonts] in
/-- The hit test does not overflow on windows that end within `usize`. -/
theorem exists_windowAt (mx my : ℕ) (windows : List WmWindow)
    (hrect : ∀ win ∈ windows, win.x + win.width ≤ USIZE_MAX ∧ win.y + win.height ≤ USIZE_MAX) :
    ∃ hit, windowAt mx my windows = some hit := by
  induction windows with
  | nil => exact ⟨none, rfl⟩
  | cons win windows ih =>
    rw [List.forall_mem_cons] at hrect
    obtain ⟨hit, hrest⟩ := ih hrect.2
    simp only [windowAt, usize_of_le hrect.1.1, usize_of_le hrect.1.2, hrest, Option.bind_eq_bind]
    by_cases hx : mx ≥ win.x <;> by_cases hx' : mx < win.x + win.width <;>
      by_cases hy : my ≥ win.y <;> simp only [hx, hx', hy, if_true, if_false, Option.bind_some] <;>
      split <;> exact ⟨_, rfl⟩

/-- A click never fails on windows that end within `usize`. -/
theorem exists_handleClick (hfits : ∀ win ∈ wm.windows, win.bufInfo.Fits)
    (hrect : ∀ win ∈ wm.windows,
      win.x + win.width ≤ USIZE_MAX ∧ win.y + win.height ≤ USIZE_MAX) :
    ∃ wm', wm.handleClick = some wm' := by
  unfold handleClick
  dsimp only
  split
  · unfold handleTaskbarClick
    dsimp only
    split
    · obtain ⟨wm₁, h₁⟩ := exists_focusWindow hfits _
      exact ⟨_, by rw [h₁]; rfl⟩
    · exact ⟨_, rfl⟩
  · obtain ⟨hit, hhit⟩ := exists_windowAt (asUsize wm.cursor.x) (asUsize wm.cursor.y)
      wm.windows.reverse fun win hwin => hrect win (List.mem_reverse.1 hwin)
    rw [hhit]
    cases hit with
    | none => exact ⟨wm, rfl⟩
    | some id => exact exists_focusWindow hfits id

/-- A mouse event succeeds if its click does, wherever the cursor can be drawn. -/
theorem exists_handleMouse_of_click (hf : info.Fits) {event : MouseEvent} {cursor : CursorState}
    (hold : wm.cursor.visible = true → wm.cursor.Addressable)
    (hdelta : wm.cursor.applyDelta event.dx event.dy = some cursor) (hnew : cursor.Addressable)
    (hclick : event.left = true →
      ∃ wm₁, ({ wm with cursor } : WindowManager).handleClick = some wm₁) (fb : Buf) :
    ∃ wm' fb', wm.handleMouse event fb info = some (wm', fb') ∧ fb'.size = fb.size := by
  obtain ⟨fb₁, hrestore, hsize₁⟩ := CursorState.exists_restoreBackground hf hold fb
  obtain ⟨wm₁, hclick⟩ : ∃ wm₁, (if event.left then ({ wm with cursor } : WindowManager).handleClick
      else some { wm with cursor }) = some wm₁ := by
    split
    · rename_i hleft
      exact hclick hleft
    · exact ⟨_, rfl⟩
  simp only [handleMouse, hrestore, hdelta, hclick, Option.bind_eq_bind, Option.bind_some]
  have hcursor : wm₁.cursor = cursor := by
    split at hclick
    · rcases handleClick_eq_some hclick with rfl | ⟨windows, focused, -, rfl⟩ <;> rfl
    · cases hclick
      rfl
  split
  · exact ⟨wm₁, fb₁, rfl, hsize₁⟩
  · obtain ⟨savedBg, hsave, -⟩ := CursorState.exists_saveBackground hf hnew fb₁
    obtain ⟨fb₂, hdraw, hsize₂, -⟩ := CursorState.paints_draw hf (hnew.saved savedBg) fb₁ rfl
    have hdraw' : ({ cursor with savedBg } : CursorState).draw fb₁ info = some fb₂ := hdraw
    rw [hcursor, hsave, Option.bind_some, hdraw']
    exact ⟨_, fb₂, rfl, hsize₂.trans hsize₁⟩

/-- A mouse event never fails on a screen that leaves room for one movement in `i32`, with windows
that end within `usize`. -/
theorem exists_handleMouse (hf : info.Fits) (hin : wm.cursor.Inside)
    (hw : wm.cursor.screenWidth ≤ 2 ^ 31 - 2 ^ 15) (hh : wm.cursor.screenHeight ≤ 2 ^ 31 - 2 ^ 15)
    (hfits : ∀ win ∈ wm.windows, win.bufInfo.Fits)
    (hrect : ∀ win ∈ wm.windows, win.x + win.width ≤ USIZE_MAX ∧ win.y + win.height ≤ USIZE_MAX)
    (event : MouseEvent) (fb : Buf) :
    ∃ wm' fb', wm.handleMouse event fb info = some (wm', fb') ∧ fb'.size = fb.size := by
  obtain ⟨cursor, hdelta⟩ := CursorState.exists_applyDelta hin hw hh event.dx event.dy
  have hin' := (CursorState.applyDelta_eq_some hin.width_lt hin.height_lt hdelta).1
  exact exists_handleMouse_of_click hf (fun _ => hin.addressable) hdelta hin'.addressable
    (fun _ => exists_handleClick hfits hrect) fb

end WindowManager

end ROs
