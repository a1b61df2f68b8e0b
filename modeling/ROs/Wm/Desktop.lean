import ROs.Wm.Running

/-!
# The desktop

What a user works on with the mouse: panes that lie one upon the other, one of which has the focus,
and a pointer (`Desktop`).  There are no pixels, no buffers and no overflow; a mouse event moves the
pointer, and a left click raises the pane that it hits, unless this one has the focus already
(`Desktop.mouse`).

* `WindowManager.Running.desktop_mouse` : **`handle_mouse` does to the desktop of the window manager
  what the event does to a desktop.**
* `WindowManager.SameDesktop.desktop_eq` : what draws or writes leaves the desktop alone.
-/

namespace ROs

/-! ### The abstract desktop -/

/-- A window without what is in it: its place and its title. -/
structure Pane where
  id : ℕ
  rect : Rect
  title : List UInt8
  deriving DecidableEq

/-- The width of the label in the taskbar, with the gap behind it. -/
def Pane.labelWidth (self : Pane) : ℕ := self.title.length * FONT_WIDTH + 16

/-- Panes, from back to front, and a pointer on a screen. -/
structure Desktop where
  panes : List Pane
  focused : Option ℕ
  pointer : ℕ × ℕ
  width : ℕ
  height : ℕ
  deriving DecidableEq

namespace Desktop

/-- The pane on top at the point. -/
def paneAt (self : Desktop) (p : ℕ × ℕ) : Option Pane :=
  self.panes.reverse.find? fun pane => pane.rect.Contains p

/-- The pane whose label begins at most four columns to the right of `mx` and ends behind it, the
first label beginning at `lx`. -/
def labelAt (mx lx : ℕ) : List Pane → Option ℕ
  | [] => none
  | pane :: panes =>
    if lx - 4 ≤ mx ∧ mx < lx + pane.labelWidth then some pane.id
    else labelAt mx (lx + pane.labelWidth) panes

/-- The pane that a click hits: by its label in the taskbar, by its rectangle above. -/
def target (self : Desktop) : Option ℕ :=
  if self.height - TASKBAR_HEIGHT ≤ self.pointer.2 then labelAt self.pointer.1 54 self.panes
  else (self.paneAt self.pointer).map Pane.id

/-- The pane gets the focus and comes to the front, unless it has the focus. -/
def raise (self : Desktop) (id : ℕ) : Desktop :=
  if self.focused = some id then self
  else { self with
    panes := (self.panes.filter fun pane => pane.id ≠ id) ++
      self.panes.filter fun pane => pane.id = id
    focused := some id }

/-- A coordinate that is moved, and stays within `0` and `n - 1`. -/
def slide (n v : ℕ) (d : ℤ) : ℕ := (max 0 (min (v + d) (n - 1))).toNat

/-- The pointer moves; the mouse counts upwards, the screen downwards. -/
def move (self : Desktop) (dx dy : Int16) : Desktop :=
  { self with
    pointer := (slide self.width self.pointer.1 dx.toInt,
      slide self.height self.pointer.2 (-dy.toInt)) }

/-- What a click does. -/
def click (self : Desktop) : Desktop :=
  match self.target with
  | some id => self.raise id
  | none => self

theorem click_of_some {self : Desktop} {id : ℕ} (h : self.target = some id) :
    self.click = self.raise id := by
  unfold click
  rw [h]

theorem click_of_none {self : Desktop} (h : self.target = none) : self.click = self := by
  unfold click
  rw [h]

/-- What a mouse event does. -/
def mouse (self : Desktop) (event : MouseEvent) : Desktop :=
  if event.left then (self.move event.dx event.dy).click else self.move event.dx event.dy

/-- The cursor of the mouse. -/
def sprite (self : Desktop) : Layer (ℕ × ℕ) Color :=
  CursorState.cellLayer self.pointer.1 self.pointer.2 spriteColor

/-- A click changes the panes and the focus only. -/
theorem click_eq (self : Desktop) :
    self.click = { self with panes := self.click.panes, focused := self.click.focused } := by
  cases htarget : self.target with
  | none =>
    rw [click_of_none htarget]
  | some id =>
    rw [click_of_some htarget, raise]
    split
    · rfl
    · rfl

end Desktop

/-! ### The desktop of a window manager -/

/-- Where the cursor is moved to. -/
theorem CursorState.applyDelta_pos {cur cur' : CursorState} {dx dy : Int16}
    (h : cur.applyDelta dx dy = some cur') :
    cur'.x = max 0 (min (cur.x + dx.toInt) (cur.screenWidth - 1)) ∧
      cur'.y = max 0 (min (cur.y + -dy.toInt) (cur.screenHeight - 1)) := by
  simp only [applyDelta, Option.bind_eq_bind, Option.bind_eq_some_iff, i32_eq_some] at h
  obtain ⟨x, ⟨-, rfl⟩, y, ⟨-, rfl⟩, w, ⟨-, rfl⟩, x, hx, hgt, ⟨-, rfl⟩, y, hy, h⟩ := h
  simp only [clamp, Option.ite_none_right_eq_some, Option.some.injEq] at hx hy
  obtain ⟨-, rfl⟩ := hx
  obtain ⟨-, rfl⟩ := hy
  cases h
  exact ⟨rfl, by rw [← Int.sub_eq_add_neg]⟩

/-- The window without what is in it. -/
def WmWindow.pane (win : WmWindow) : Pane :=
  ⟨win.id, win.rect, win.title.toList.take win.titleLen⟩

@[simp] theorem WmWindow.labelWidth_pane (win : WmWindow) :
    win.pane.labelWidth = win.titleLen * FONT_WIDTH + 16 := by
  have hlen : win.pane.title.length = win.titleLen := by
    rw [pane, List.length_take, Vector.length_toList]
    exact Nat.min_eq_left win.titleLen_le
  rw [Pane.labelWidth, hlen]

namespace WindowManager

/-- The desktop of a window manager. -/
def desktop (wm : WindowManager) : Desktop where
  panes := wm.windows.map WmWindow.pane
  focused := wm.focused
  pointer := Session.pointer wm
  width := wm.screenInfo.width
  height := wm.screenInfo.height

variable {wm wm' : WindowManager} {windows windows' : List WmWindow} {win : WmWindow}

theorem map_pane_of_map_frame (h : windows'.map WmWindow.frame = windows.map WmWindow.frame) :
    windows'.map WmWindow.pane = windows.map WmWindow.pane := by
  have hpanes := congrArg (List.map WmWindow.pane) h
  rw [List.map_map, List.map_map] at hpanes
  exact hpanes

/-- **What draws or writes leaves the desktop alone.** -/
theorem SameDesktop.desktop_eq (h : SameDesktop wm wm') : wm'.desktop = wm.desktop := by
  simp only [desktop, Session.pointer, map_pane_of_map_frame h.frames, h.focused, h.x, h.y,
    h.screenInfo]

/-- The labels of the panes are those of the windows. -/
theorem labelAt_map_pane (mx lx : ℕ) (windows : List WmWindow) :
    Desktop.labelAt mx lx (windows.map WmWindow.pane) = labelAt mx lx windows := by
  induction windows generalizing lx with
  | nil => rfl
  | cons win windows ih =>
    rw [List.map_cons, Desktop.labelAt, labelAt, ih, WmWindow.labelWidth_pane]
    rfl

/-- The pane on top is that of the window on top. -/
theorem paneAt_desktop (wm : WindowManager) (p : ℕ × ℕ) :
    (wm.desktop.paneAt p).map Pane.id = (topmost wm.windows p).map WmWindow.id := by
  rw [Desktop.paneAt, desktop, ← List.map_reverse, List.find?_map, Option.map_map]
  rfl

/-- A pane that is alone with its id. -/
theorem filter_pane (hnodup : (windows.map WmWindow.id).Nodup) (hwin : win ∈ windows) :
    (windows.map WmWindow.pane).filter (fun pane => pane.id = win.id) = [win.pane] := by
  have hfilter : windows.filter (fun w => w.id = win.id) = [win] := by
    induction windows with
    | nil => cases hwin
    | cons first windows ih =>
      rw [List.map_cons, List.nodup_cons] at hnodup
      rcases List.mem_cons.1 hwin with rfl | hmem
      · rw [List.filter_cons_of_pos (by simp), List.filter_eq_nil_iff.2]
        intro w hw heq
        exact hnodup.1 (of_decide_eq_true heq ▸ List.mem_map_of_mem hw)
      · have hne : first.id ≠ win.id := fun heq => hnodup.1 (heq ▸ List.mem_map_of_mem hmem)
        rw [List.filter_cons_of_neg (by simpa using hne)]
        exact ih hnodup.2 hmem
  rw [List.filter_map]
  exact congrArg (List.map WmWindow.pane) hfilter

variable [BasicFonts] {info : FrameBufferInfo} {fb fb' : Buf} {created : List WmWindow}

/-- **`focus_window`** raises the pane. -/
theorem raise_of_focusWindow (hnodup : (wm.windows.map WmWindow.id).Nodup) (hwin : win ∈ wm.windows)
    (h : wm.focusWindow win.id = some wm') :
    wm'.windows.map WmWindow.pane = (wm.desktop.raise win.id).panes ∧
      wm'.focused = (wm.desktop.raise win.id).focused := by
  obtain ⟨heffect, hfocused, hsame⟩ := focusEffect_of_focusWindow hwin h
  by_cases hfocus : wm.focused = some win.id
  · rw [Desktop.raise, if_pos (show wm.desktop.focused = _ from hfocus), hsame hfocus, hfocused]
    exact ⟨rfl, hfocus.symm⟩
  · rw [Desktop.raise, if_neg (show ¬ wm.desktop.focused = _ from hfocus)]
    refine ⟨?_, hfocused⟩
    cases heffect with
    | keep windows focused => exact absurd (focused.symm.trans hfocused) hfocus
    | @move moved redrawn mem change focused unfocus redraw =>
      have hid : moved.id = win.id := Option.some.inj (focused.symm.trans hfocused)
      have hframes := FocusEffect.map_frame_eq hnodup hwin hid unfocus redraw
      have hpanes := congrArg (List.map WmWindow.pane) hframes
      rw [List.map_map, List.map_append, List.filter_map, List.map_map] at hpanes
      refine hpanes.trans ?_
      change _ = (wm.windows.map WmWindow.pane).filter _ ++ (wm.windows.map WmWindow.pane).filter _
      rw [filter_pane hnodup hwin, List.filter_map]
      rfl

omit [BasicFonts] in
theorem clickTarget_eq_nothing {p : ℕ × ℕ} (h : wm.clickTarget p = some .nothing) :
    p.2 < wm.screenInfo.height - wm.taskbarHeight ∧ topmost wm.windows p = none := by
  unfold clickTarget at h
  split at h
  · cases h
  · rename_i habove
    obtain ⟨hit, hhit, h⟩ := Option.map_eq_some_iff.1 h
    refine ⟨Nat.lt_of_not_le habove, ?_⟩
    have hid := windowAt_eq_some hhit
    cases htop : topmost wm.windows p with
    | none => rfl
    | some win =>
      rw [hid, htop] at h
      cases h

omit [BasicFonts] in
/-- The target of the desktop, by the windows. -/
theorem target_desktop (wm : WindowManager) : wm.desktop.target =
    if wm.screenInfo.height - wm.taskbarHeight ≤ (Session.pointer wm).2 then
      labelAt (Session.pointer wm).1 54 wm.windows
    else (topmost wm.windows (Session.pointer wm)).map WmWindow.id := by
  rw [wm.taskbarHeight_eq, ← labelAt_map_pane, ← paneAt_desktop]
  rfl

/-- **A click that is dispatched to its target** is a click on the desktop. -/
theorem click_of_dispatch (hnodup : (wm.windows.map WmWindow.id).Nodup) {target : ClickTarget}
    (htarget : wm.clickTarget (Session.pointer wm) = some target)
    (h : wm.dispatch target = some wm') :
    wm'.windows.map WmWindow.pane = wm.desktop.click.panes ∧
      wm'.focused = wm.desktop.click.focused := by
  have hclick := target_desktop wm
  cases target with
  | taskbar =>
    obtain ⟨wm₁, hlabel, h⟩ := Option.bind_eq_some_iff.1 h
    cases h
    rw [if_pos (clickTarget_eq_taskbar.1 htarget)] at hclick
    have hsep : 8 + 4 * FONT_WIDTH + 6 + 8 = 54 := rfl
    rw [handleTaskbarClick, hsep] at hlabel
    change (match labelAt (Session.pointer wm).1 54 wm.windows with
      | some id => wm.focusWindow id
      | none => some wm) = some wm₁ at hlabel
    rw [← hclick] at hlabel
    cases ht : wm.desktop.target with
    | none =>
      rw [ht] at hlabel
      rw [Desktop.click_of_none ht]
      cases hlabel
      exact ⟨rfl, rfl⟩
    | some id =>
      rw [ht] at hlabel hclick
      rw [Desktop.click_of_some ht]
      obtain ⟨win, hwin, rfl⟩ := mem_of_labelAt hclick.symm
      have hraise := raise_of_focusWindow hnodup hwin hlabel
      exact hraise
  | window id =>
    obtain ⟨habove, -, htop⟩ := clickTarget_eq_window.1 htarget
    rw [if_neg (Nat.not_le_of_lt habove), htop] at hclick
    rw [Desktop.click_of_some hclick]
    obtain ⟨win, hwin, rfl⟩ := Option.map_eq_some_iff.1 htop
    exact raise_of_focusWindow hnodup (mem_of_topmost hwin) h
  | nothing =>
    cases h
    obtain ⟨habove, htop⟩ := clickTarget_eq_nothing htarget
    rw [if_neg (Nat.not_le_of_lt habove), htop] at hclick
    rw [Desktop.click_of_none hclick]
    exact ⟨rfl, rfl⟩

omit [BasicFonts] in
/-- The pointer slides as the cursor does. -/
theorem slide_eq {n : ℕ} {v v' d : ℤ} (hn : n < 2 ^ 31) (hv : 0 ≤ v) (hlt : v < n)
    (h : v' = max 0 (min (v + d) (n - 1))) : asUsize v' = Desktop.slide n (asUsize v) d := by
  have hcast := asUsize_of_nonneg hv (by omega)
  have hcast' : (asUsize v' : ℤ) = v' := asUsize_of_nonneg (by omega) (by omega)
  rw [Desktop.slide, hcast, ← h]
  omega

/-- **`handle_mouse` does to the desktop what the event does to a desktop.** -/
theorem Running.desktop_mouse (hw : info.width < 2 ^ 31) (hh : info.height < 2 ^ 31)
    (h : Running info created wm fb) {event : MouseEvent}
    (hmouse : wm.handleMouse event fb info = some (wm', fb')) :
    wm'.desktop = wm.desktop.mouse event := by
  obtain ⟨cursor, hdelta, hx, hy, -, hscreen, hcases⟩ := handleMouse_dispatch hmouse
  have hinfo : wm.screenInfo = info := h.coherent.screenInfo_eq
  have hwidth : wm.cursor.screenWidth = info.width := h.screenWidth_eq.trans (asI32_of_lt hw)
  have hheight : wm.cursor.screenHeight = info.height := h.screenHeight_eq.trans (asI32_of_lt hh)
  have hmove : ({ wm with cursor } : WindowManager).desktop =
      wm.desktop.move event.dx event.dy := by
    obtain ⟨hcx, hcy⟩ := CursorState.applyDelta_pos hdelta
    have hslide := slide_eq hw h.inside.x_nonneg (hwidth ▸ h.inside.x_lt) (hwidth ▸ hcx)
    have hslide' := slide_eq hh h.inside.y_nonneg (hheight ▸ h.inside.y_lt) (hheight ▸ hcy)
    simp only [desktop, Desktop.move, Session.pointer, hslide, hslide', hinfo]
  have hpointer : Session.pointer wm' = Session.pointer { wm with cursor } := by
    simp only [Session.pointer, hx, hy]
  rw [Desktop.mouse, ← hmove]
  rcases hcases with ⟨hleft, hwindows, hfocused⟩ |
    ⟨hleft, target, wm₁, htarget, hdispatch, hwindows, hfocused⟩
  · rw [if_neg (by rw [hleft]; decide)]
    simp only [desktop, hpointer, hwindows, hfocused, hscreen]
  · have hnodup : (({ wm with cursor } : WindowManager).windows.map WmWindow.id).Nodup :=
      h.session.nodup
    obtain ⟨hpanes, hfocus⟩ := click_of_dispatch hnodup htarget hdispatch
    rw [if_pos hleft, Desktop.click_eq, ← hpanes, ← hfocus]
    simp only [desktop, hpointer, hwindows, hfocused, hscreen]

end WindowManager

end ROs
