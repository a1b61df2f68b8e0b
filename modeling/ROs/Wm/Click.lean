import ROs.Wm.Focus

/-!
# Clicks and what is drawn

Hit testing and drawing are coded separately, for the windows and for the labels of the taskbar.

* `WindowManager.click_agrees` : a click goes to what `composite` shows at the point, unless the
  point lies in the bottom strip and inside a window, or the hit test overflows.
* `WindowManager.taskbarClick_label` : a click on the box of a label selects its window, unless it
  hits the four columns that the label before also claims.

`WindowManager.showing` says what is drawn at a point, by the order of drawing; it is what the
pixels of the scene show (`WindowManager.scene_showing`).  `WindowManager.clickTarget` says where
`handle_mouse` sends a click, by the order of its tests (`WindowManager.handleClick_eq`).  Both are
put together for the code: `WindowManager.ClickAgrees.handleClick_shown` for what the scene shows
under the pointer, `WindowManager.drawTaskbar_labelBox` and `WindowManager.handleClick_labelBox`
for the box of a label.
-/

namespace ROs

/-! ### Hit testing -/

namespace WmWindow

/-- The sums that the hit test makes for the window do not overflow. -/
def SumsFit (win : WmWindow) (p : ℕ × ℕ) : Prop :=
  win.x ≤ p.1 → win.x + win.width ≤ USIZE_MAX ∧
    (p.1 < win.x + win.width → win.y ≤ p.2 → win.y + win.height ≤ USIZE_MAX)

instance (win : WmWindow) (p : ℕ × ℕ) : Decidable (win.SumsFit p) :=
  inferInstanceAs (Decidable (_ → _ ∧ (_ → _ → _)))

end WmWindow

/-- The hit test succeeds on the windows, given from front to back: no sum overflows for the
windows up to the first one that contains the point. -/
def Testable (p : ℕ × ℕ) : List WmWindow → Prop
  | [] => True
  | win :: windows => win.SumsFit p ∧ (¬ win.rect.Contains p → Testable p windows)

instance decidableTestable (p : ℕ × ℕ) : (windows : List WmWindow) → Decidable (Testable p windows)
  | [] => inferInstanceAs (Decidable True)
  | _ :: windows =>
    have := decidableTestable p windows
    inferInstanceAs (Decidable (_ ∧ (_ → _)))

/-- No sum overflows for windows that end within `usize`. -/
theorem testable_of_forall {p : ℕ × ℕ} {windows : List WmWindow} (h : ∀ win ∈ windows,
    win.x + win.width ≤ USIZE_MAX ∧ win.y + win.height ≤ USIZE_MAX) : Testable p windows := by
  induction windows with
  | nil => trivial
  | cons win windows ih =>
    rw [List.forall_mem_cons] at h
    exact ⟨fun _ => ⟨h.1.1, fun _ _ => h.1.2⟩, fun _ => ih h.2⟩

namespace WindowManager

variable {wm : WindowManager} {p : ℕ × ℕ}

/-- The test of one window. -/
theorem windowAt_cons (win : WmWindow) (windows : List WmWindow) :
    windowAt p.1 p.2 (win :: windows) =
      if win.SumsFit p then
        if win.rect.Contains p then some (some win.id) else windowAt p.1 p.2 windows
      else none := by
  simp only [windowAt, WmWindow.SumsFit, Rect.Contains, WmWindow.rect, ge_iff_le,
    Option.bind_eq_bind]
  by_cases hx : win.x ≤ p.1
  · by_cases hsum : win.x + win.width ≤ USIZE_MAX
    · rw [usize_of_le hsum]
      by_cases hx' : p.1 < win.x + win.width
      · by_cases hy : win.y ≤ p.2
        · by_cases hsum' : win.y + win.height ≤ USIZE_MAX
          · rw [usize_of_le hsum']
            by_cases hy' : p.2 < win.y + win.height <;> simp [hx, hx', hy, hy', hsum, hsum']
          · have hnone : usize (win.y + win.height) = none := if_neg hsum'
            simp [hx, hx', hy, hsum, hsum', hnone]
        · simp [hx, hx', hy, hsum]
      · simp [hx, hx', hsum]
    · have hnone : usize (win.x + win.width) = none := if_neg hsum
      simp [hx, hsum, hnone]
  · simp [hx]

/-- The hit test finds the first window, from front to back, that contains the point. -/
theorem windowAt_of_testable {windows : List WmWindow} (h : Testable p windows) :
    windowAt p.1 p.2 windows =
      some ((windows.find? fun win => win.rect.Contains p).map WmWindow.id) := by
  induction windows with
  | nil => rfl
  | cons win windows ih =>
    rw [windowAt_cons, if_pos h.1, List.find?_cons]
    by_cases hin : win.rect.Contains p
    · simp [hin]
    · simp only [hin, if_false, decide_false]
      exact ih (h.2 hin)

theorem windowAt_of_not_testable {windows : List WmWindow} (h : ¬ Testable p windows) :
    windowAt p.1 p.2 windows = none := by
  induction windows with
  | nil => exact absurd trivial h
  | cons win windows ih =>
    rw [windowAt_cons]
    by_cases hfit : win.SumsFit p
    · by_cases hin : win.rect.Contains p
      · exact absurd ⟨hfit, fun hout => absurd hin hout⟩ h
      · rw [if_pos hfit, if_neg hin]
        exact ih fun hrest => h ⟨hfit, fun _ => hrest⟩
    · rw [if_neg hfit]

/-- What a hit test that succeeds has found. -/
theorem windowAt_eq_some {windows : List WmWindow} {hit : Option ℕ}
    (h : windowAt p.1 p.2 windows.reverse = some hit) :
    hit = (topmost windows p).map WmWindow.id := by
  by_cases ht : Testable p windows.reverse
  · rw [windowAt_of_testable ht] at h
    exact (Option.some.inj h).symm
  · rw [windowAt_of_not_testable ht] at h
    cases h

end WindowManager

/-- Where a left click is sent. -/
inductive ClickTarget where
  /-- To `handle_taskbar_click`. -/
  | taskbar
  /-- To `focus_window`, with this id. -/
  | window (id : ℕ)
  | nothing
  deriving DecidableEq

namespace WindowManager

variable {wm : WindowManager} {p : ℕ × ℕ}

/-- Where `handle_mouse` sends a left click at the point. -/
def clickTarget (wm : WindowManager) (p : ℕ × ℕ) : Option ClickTarget :=
  if p.2 ≥ wm.screenInfo.height - wm.taskbarHeight then some .taskbar
  else (windowAt p.1 p.2 wm.windows.reverse).map fun hit => hit.elim .nothing .window

/-- What `handle_mouse` does with a click that is sent to the target. -/
def dispatch [BasicFonts] (wm : WindowManager) : ClickTarget → Option WindowManager
  | .taskbar => do
    let wm ← wm.handleTaskbarClick (asUsize wm.cursor.x)
    some { wm with needsComposite := true }
  | .window id => wm.focusWindow id
  | .nothing => some wm

/-- **`handle_mouse` acts on the target of the click.** -/
theorem handleClick_eq [BasicFonts] (wm : WindowManager) :
    wm.handleClick =
      (wm.clickTarget (asUsize wm.cursor.x, asUsize wm.cursor.y)).bind wm.dispatch := by
  unfold handleClick clickTarget
  dsimp only
  split
  · rfl
  · cases windowAt (asUsize wm.cursor.x) (asUsize wm.cursor.y) wm.windows.reverse with
    | none => rfl
    | some hit => cases hit <;> rfl

/-- A click is sent to the windows exactly where there is no taskbar. -/
theorem clickTarget_eq_window {id : ℕ} :
    wm.clickTarget p = some (.window id) ↔
      p.2 < wm.screenInfo.height - wm.taskbarHeight ∧ Testable p wm.windows.reverse ∧
        (topmost wm.windows p).map WmWindow.id = some id := by
  unfold clickTarget
  split
  · rename_i hstrip
    constructor
    · intro h
      cases h
    · intro h
      omega
  · rename_i hstrip
    by_cases ht : Testable p wm.windows.reverse
    · rw [windowAt_of_testable ht]
      change some (((topmost wm.windows p).map WmWindow.id).elim _ _) = _ ↔ _
      cases topmost wm.windows p with
      | none => simp
      | some win => simp [ht, Nat.lt_of_not_le hstrip]
    · rw [windowAt_of_not_testable ht]
      simp [ht]

/-- Above the taskbar a click on a window is sent to the one on top. -/
theorem eq_window_of_clickTarget {win : WmWindow} {target : ClickTarget}
    (habove : p.2 < wm.screenInfo.height - wm.taskbarHeight)
    (htop : topmost wm.windows p = some win) (h : wm.clickTarget p = some target) :
    target = .window win.id := by
  rw [clickTarget, if_neg (Nat.not_le_of_lt habove)] at h
  obtain ⟨hit, hhit, rfl⟩ := Option.map_eq_some_iff.1 h
  rw [windowAt_eq_some hhit, htop]
  rfl

theorem clickTarget_eq_taskbar :
    wm.clickTarget p = some .taskbar ↔ wm.screenInfo.height - wm.taskbarHeight ≤ p.2 := by
  unfold clickTarget
  split
  · rename_i hstrip
    simpa using hstrip
  · rename_i hstrip
    cases windowAt p.1 p.2 wm.windows.reverse with
    | none => simpa using hstrip
    | some hit => cases hit <;> simpa using hstrip

end WindowManager

/-! ### What is shown -/

/-- What a point of the screen shows, apart from the cursor. -/
inductive Showing where
  | window (win : WmWindow)
  | taskbar
  | background

/-- There is nothing of the taskbar above its strip. -/
theorem taskbarLayer_eq_none [BasicFonts] {info : FrameBufferInfo} {taskbarHeight : ℕ} {p : ℕ × ℕ}
    (hp : p.2 < info.height - taskbarHeight) (windows : List WmWindow) (focused : Option ℕ) :
    taskbarLayer info taskbarHeight windows focused p = none := by
  have hlabels : ∀ lx, labelsLayer (info.height - taskbarHeight) taskbarHeight focused lx windows p =
      none := by
    induction windows with
    | nil => exact fun _ => rfl
    | cons win windows ih =>
      intro lx
      simp only [labelsLayer, Layer.atop_apply, ih, textLayer_eq_none (.inl (Nat.lt_add_right 6 hp))]
      split
      · rw [fill_contains_eq_none (Nat.lt_add_right 2 hp)]
        rfl
      · rfl
  simp only [taskbarLayer, Layer.atop_apply, hlabels,
    textLayer_eq_none (.inl (Nat.lt_add_right 6 hp))]
  rw [fill_contains_eq_none (Nat.lt_add_right 4 hp), fill_contains_eq_none hp,
    fill_contains_eq_none hp]
  rfl

namespace WindowManager

variable {wm : WindowManager} {p : ℕ × ℕ}

/-- What `composite` draws last at the point: a window, the taskbar or the background. -/
def showing (wm : WindowManager) (p : ℕ × ℕ) : Showing :=
  match topmost wm.windows p with
  | some win => .window win
  | none => if p.2 ≥ wm.screenInfo.height - wm.taskbarHeight then .taskbar else .background

/-- **The scene shows at every point what was drawn there last.** -/
theorem scene_showing [BasicFonts] {info : FrameBufferInfo} (hf : info.Fits)
    (hheight : info.height = wm.screenInfo.height) (hsize : wm.backBuf.size = wm.bgCache.size)
    (hn : info.Holds wm.bgCache.size) (hv : ∀ win ∈ wm.windows, win.Valid info)
    (hfit : ∀ win ∈ wm.windows, win.OffsetsFit info) :
    ∃ tb backBuf, drawTaskbar wm.bgCache info wm.taskbarHeight wm.windows wm.focused = some tb ∧
      wm.scene info = some backBuf ∧ ∀ p, info.OnScreen p → info.pixel backBuf p =
        match wm.showing p with
        | .window win => win.bufInfo.pixel win.buf (p.1 - win.x, p.2 - win.y)
        | .taskbar => info.pixel tb p
        | .background => info.pixel wm.bgCache p := by
  obtain ⟨tb, backBuf, hbar, hscene, -, -, hlook⟩ := exists_scene wm hf hsize hn hv hfit
  refine ⟨tb, backBuf, hbar, hscene, fun p hp => ?_⟩
  rw [hlook p hp, showing]
  cases topmost wm.windows p with
  | some win => rfl
  | none =>
    dsimp only
    by_cases hstrip : p.2 ≥ wm.screenInfo.height - wm.taskbarHeight
    · rw [if_pos hstrip]
    · -- the taskbar leaves the points above its strip as they were
      rw [if_neg hstrip]
      obtain ⟨tb', hbar', -, htb⟩ := paints_drawTaskbar hf wm.taskbarHeight wm.windows wm.focused
        wm.bgCache rfl
      cases hbar.symm.trans hbar'
      have h := htb p (hn p hp)
      rw [taskbarLayer_eq_none (by omega)] at h
      exact h

/-- Clicks at the point go to what is shown there. -/
structure ClickAgrees (wm : WindowManager) (p : ℕ × ℕ) : Prop where
  window : ∀ id, wm.clickTarget p = some (.window id) ↔
    ∃ win, wm.showing p = .window win ∧ win.id = id
  taskbar : wm.clickTarget p = some .taskbar → wm.showing p = .taskbar

theorem showing_eq_window {win : WmWindow} :
    wm.showing p = .window win ↔ topmost wm.windows p = some win := by
  unfold showing
  cases topmost wm.windows p with
  | none => simp only [reduceCtorEq, iff_false]; split <;> simp
  | some win => simp

/-- **Hit testing agrees with what is drawn** exactly where no window reaches into the bottom
strip and no sum overflows before the window that is shown is found. -/
theorem click_agrees (wm : WindowManager) (p : ℕ × ℕ) :
    wm.ClickAgrees p ↔
      if wm.screenInfo.height - wm.taskbarHeight ≤ p.2 then topmost wm.windows p = none
      else topmost wm.windows p ≠ none → Testable p wm.windows.reverse := by
  split
  · rename_i hstrip
    constructor
    · intro h
      have hshow := h.taskbar (clickTarget_eq_taskbar.2 hstrip)
      cases htop : topmost wm.windows p with
      | none => rfl
      | some win => rw [showing_eq_window.2 htop] at hshow; cases hshow
    · intro htop
      refine ⟨fun id => ?_, fun _ => ?_⟩
      · simp only [clickTarget_eq_window, showing_eq_window, htop]
        simp
      · rw [showing, htop]
        exact if_pos hstrip
  · rename_i habove
    constructor
    · intro h htop
      obtain ⟨win, hwin⟩ := Option.ne_none_iff_exists'.1 htop
      exact (clickTarget_eq_window.1 ((h.window win.id).2 ⟨win, showing_eq_window.2 hwin, rfl⟩)).2.1
    · intro h
      refine ⟨fun id => ?_, fun htarget => absurd (clickTarget_eq_taskbar.1 htarget) habove⟩
      simp only [clickTarget_eq_window, showing_eq_window, Option.map_eq_some_iff]
      constructor
      · exact fun htarget => htarget.2.2
      · rintro ⟨win, hwin, hid⟩
        exact ⟨Nat.lt_of_not_le habove, h (by rw [hwin]; exact nofun), win, hwin, hid⟩

/-- The hit test and the drawing agree at a point: the click is sent to what is shown there.  On
the background it hits nothing, or a sum of the hit test overflows. -/
theorem ClickAgrees.clickTarget_eq (h : wm.ClickAgrees p) :
    wm.clickTarget p =
      match wm.showing p with
      | .window win => some (.window win.id)
      | .taskbar => some .taskbar
      | .background => if Testable p wm.windows.reverse then some .nothing else none := by
  cases hshow : wm.showing p with
  | window win => exact (h.window win.id).2 ⟨win, hshow, rfl⟩
  | taskbar =>
    refine clickTarget_eq_taskbar.2 ?_
    unfold showing at hshow
    split at hshow
    · cases hshow
    · split at hshow
      · assumption
      · cases hshow
  | background =>
    unfold showing at hshow
    split at hshow
    · cases hshow
    · rename_i htop
      split at hshow
      · cases hshow
      · rename_i hstrip
        rw [clickTarget, if_neg hstrip]
        by_cases ht : Testable p wm.windows.reverse
        · rw [windowAt_of_testable ht, if_pos ht]
          change some (((topmost wm.windows p).map WmWindow.id).elim _ _) = _
          rw [htop]
          rfl
        · rw [windowAt_of_not_testable ht, if_neg ht]
          rfl

/-- **A click acts on what the scene shows under the pointer**, wherever hit testing agrees with
what is drawn: the window whose pixel it is gets the focus, or the taskbar handles the click. -/
theorem ClickAgrees.handleClick_shown [BasicFonts] {info : FrameBufferInfo}
    (h : wm.ClickAgrees (asUsize wm.cursor.x, asUsize wm.cursor.y)) (hf : info.Fits)
    (hheight : info.height = wm.screenInfo.height) (hsize : wm.backBuf.size = wm.bgCache.size)
    (hn : info.Holds wm.bgCache.size) (hv : ∀ win ∈ wm.windows, win.Valid info)
    (hfit : ∀ win ∈ wm.windows, win.OffsetsFit info)
    (hon : info.OnScreen (asUsize wm.cursor.x, asUsize wm.cursor.y)) :
    ∃ tb backBuf, drawTaskbar wm.bgCache info wm.taskbarHeight wm.windows wm.focused = some tb ∧
      wm.scene info = some backBuf ∧
        let p := (asUsize wm.cursor.x, asUsize wm.cursor.y)
        match wm.showing p with
        | .window win => wm.handleClick = wm.focusWindow win.id ∧
            info.pixel backBuf p = win.bufInfo.pixel win.buf (p.1 - win.x, p.2 - win.y)
        | .taskbar => wm.handleClick = wm.dispatch .taskbar ∧
            info.pixel backBuf p = info.pixel tb p
        | .background =>
          wm.handleClick = (if Testable p wm.windows.reverse then some wm else none) ∧
            info.pixel backBuf p = info.pixel wm.bgCache p := by
  obtain ⟨tb, backBuf, hbar, hscene, hlook⟩ := scene_showing hf hheight hsize hn hv hfit
  refine ⟨tb, backBuf, hbar, hscene, ?_⟩
  have hpixel := hlook _ hon
  have htarget := h.clickTarget_eq
  rw [handleClick_eq]
  dsimp only
  cases hshow : wm.showing (asUsize wm.cursor.x, asUsize wm.cursor.y) with
  | window win =>
    rw [hshow] at hpixel htarget
    exact ⟨by rw [htarget]; rfl, hpixel⟩
  | taskbar =>
    rw [hshow] at hpixel htarget
    exact ⟨by rw [htarget]; rfl, hpixel⟩
  | background =>
    rw [hshow] at hpixel htarget
    refine ⟨?_, hpixel⟩
    rw [htarget]
    dsimp only
    split <;> rfl

/-- A screen of 64 by 64 pixels whose only window ends eight lines below the upper edge of the
bottom strip. -/
def reaching : WindowManager where
  windows := [⟨0, 8, 20, 30, 24, Vector.replicate _ 0, 0, Nat.zero_le _,
    Array.replicate (30 * 24 * 3) 0, ⟨30, 24, .rgb, 3, 30⟩, none, true, 0⟩]
  focused := some 0
  nextId := 1
  cursor := ⟨10, 40, 64, 64, Vector.replicate _ .black, false⟩
  screenInfo := ⟨64, 64, .rgb, 3, 64⟩
  taskbarHeight := TASKBAR_HEIGHT
  taskbarHeight_eq := rfl
  needsComposite := true
  backBuf := Array.replicate (64 * 64 * 3) 0
  bgCache := Array.replicate (64 * 64 * 3) 0

/-- The point `(10, 40)` shows the window, but a click there is sent to the taskbar. -/
theorem click_agrees_reaching :
    (∃ win, reaching.showing (10, 40) = .window win ∧ win.id = 0) ∧
      reaching.clickTarget (10, 40) = some .taskbar ∧ ¬ reaching.ClickAgrees (10, 40) := by
  have hshow : ∃ win, reaching.showing (10, 40) = .window win ∧ win.id = 0 := ⟨_, rfl, rfl⟩
  have htarget : reaching.clickTarget (10, 40) = some .taskbar := by decide
  refine ⟨hshow, htarget, fun h => ?_⟩
  have := (h.window 0).2 hshow
  rw [htarget] at this
  cases this

end WindowManager

/-! ### The labels of the taskbar -/

/-- The column of the first label. -/
abbrev LABELS_X : ℕ := 8 + 4 * FONT_WIDTH + 6 + 8

namespace WmWindow

/-- The width of a label with the gap behind it. -/
def labelWidth (win : WmWindow) : ℕ := win.titleLen * FONT_WIDTH + 16

/-- The width of the box behind the label of the focused window. -/
def boxWidth (win : WmWindow) : ℕ := win.titleLen * FONT_WIDTH + 12

end WmWindow

/-- The column in which `draw_taskbar` writes the label of the `i`-th window. -/
def labelX (windows : List WmWindow) (i : ℕ) : ℕ :=
  LABELS_X + ((windows.take i).map WmWindow.labelWidth).sum

/-- The labels behind the first windows start behind theirs. -/
theorem drawLabels_append [BasicFonts] (info : FrameBufferInfo) (tbY taskbarHeight : ℕ)
    (focused : Option ℕ) (front back : List WmWindow) (lx : ℕ) (buf : Buf) :
    drawLabels buf info tbY taskbarHeight focused lx (front ++ back) =
      (drawLabels buf info tbY taskbarHeight focused lx front).bind fun buf =>
        drawLabels buf info tbY taskbarHeight focused
          (lx + (front.map WmWindow.labelWidth).sum) back := by
  induction front generalizing lx buf with
  | nil => rfl
  | cons win front ih =>
    simp only [List.cons_append, drawLabels, Option.bind_eq_bind, ih, List.map_cons,
      List.sum_cons, WmWindow.labelWidth, Nat.add_assoc]
    split
    · simp only [Option.bind_assoc]
    · simp only [Option.bind_assoc]

/-- **`draw_taskbar` writes the label of the `i`-th window at `labelX`**, when it has drawn the
labels before. -/
theorem drawTaskbar_at [BasicFonts] (info : FrameBufferInfo) (taskbarHeight : ℕ)
    (focused : Option ℕ) {windows : List WmWindow} {i : ℕ} {win : WmWindow}
    (h : windows[i]? = some win) (buf : Buf) :
    drawTaskbar buf info taskbarHeight windows focused =
      (drawTaskbar buf info taskbarHeight (windows.take i) focused).bind fun buf =>
        drawLabels buf info (info.height - taskbarHeight) taskbarHeight focused (labelX windows i)
          (win :: windows.drop (i + 1)) := by
  obtain ⟨hi, rfl⟩ := List.getElem?_eq_some_iff.1 h
  have hlabels : ∀ buf, drawLabels buf info (info.height - taskbarHeight) taskbarHeight focused
      LABELS_X windows =
        (drawLabels buf info (info.height - taskbarHeight) taskbarHeight focused LABELS_X
          (windows.take i)).bind fun buf =>
            drawLabels buf info (info.height - taskbarHeight) taskbarHeight focused
              (labelX windows i) (windows[i] :: windows.drop (i + 1)) := by
    intro buf
    conv_lhs => rw [← List.take_append_drop i windows, drawLabels_append]
    rw [List.drop_eq_getElem_cons hi]
    rfl
  simp only [drawTaskbar, Option.bind_eq_bind, hlabels, Option.bind_assoc]

theorem labelX_succ {windows : List WmWindow} {i : ℕ} {win : WmWindow}
    (h : windows[i]? = some win) : labelX windows (i + 1) = labelX windows i + win.labelWidth := by
  rw [labelX, labelX, List.take_add_one, h, Option.toList_some, List.map_append, List.sum_append,
    List.map_singleton, List.sum_singleton, ← Nat.add_assoc]

namespace WindowManager

/-- The label that a column hits: the one it lies behind, or the first one if it lies in the four
columns before it. -/
theorem labelAt_eq {windows : List WmWindow} {i : ℕ} {win : WmWindow} {lx mx : ℕ}
    (h : windows[i]? = some win)
    (hlo : lx + ((windows.take i).map WmWindow.labelWidth).sum ≤ mx ∨ i = 0 ∧ lx - 4 ≤ mx)
    (hhi : mx < lx + ((windows.take i).map WmWindow.labelWidth).sum + win.labelWidth) :
    labelAt mx lx windows = some win.id := by
  induction windows generalizing lx i with
  | nil => cases h
  | cons first windows ih =>
    have hwidth : first.labelWidth = first.titleLen * FONT_WIDTH + 16 := rfl
    rw [labelAt]
    cases i with
    | zero =>
      cases h
      simp only [List.take_zero, List.map_nil, List.sum_nil] at hlo hhi
      rw [if_pos (by omega)]
    | succ i =>
      simp only [List.take_succ_cons, List.map_cons, List.sum_cons] at hlo hhi
      rw [if_neg (by omega)]
      exact ih h (.inl (by omega)) (by omega)

/-- `handle_taskbar_click` gives the focus to the window whose label is hit. -/
theorem handleTaskbarClick_eq [BasicFonts] (wm : WindowManager) (mx : ℕ) :
    wm.handleTaskbarClick mx =
      (labelAt mx LABELS_X wm.windows).elim (some wm) wm.focusWindow := by
  unfold handleTaskbarClick
  dsimp only
  cases labelAt mx LABELS_X wm.windows with
  | none => rfl
  | some id => rfl

/-- The label that a column of a label's box hits: in the four columns before the label, the one
before it, which claims them as its gap. -/
theorem labelAt_box {windows : List WmWindow} {i mx : ℕ} {win : WmWindow}
    (h : windows[i]? = some win) (hlo : labelX windows i - 4 ≤ mx)
    (hhi : mx < labelX windows i - 4 + win.boxWidth) :
    labelAt mx LABELS_X windows =
      if i = 0 ∨ labelX windows i ≤ mx then some win.id else (windows[i - 1]?).map WmWindow.id := by
  have hend : mx < labelX windows i + win.labelWidth := by
    simp only [WmWindow.labelWidth, WmWindow.boxWidth] at hhi ⊢
    omega
  split
  · rename_i hin
    refine labelAt_eq h ?_ hend
    rcases hin with rfl | hle
    · exact .inr ⟨rfl, hlo⟩
    · exact .inl hle
  · rename_i hin
    obtain ⟨hzero, hlt⟩ := not_or.1 hin
    obtain ⟨j, rfl⟩ : ∃ j, i = j + 1 := ⟨i - 1, by omega⟩
    obtain ⟨prev, hprev⟩ : ∃ prev, windows[j]? = some prev := by
      obtain ⟨hj, -⟩ := List.getElem?_eq_some_iff.1 h
      exact ⟨_, List.getElem?_eq_getElem (by omega)⟩
    have hnext := labelX_succ hprev
    have hwidth : 16 ≤ prev.labelWidth := Nat.le_add_left _ _
    have hhit : labelAt mx LABELS_X windows = some prev.id :=
      labelAt_eq hprev (.inl (show labelX windows j ≤ mx by omega))
        (show mx < labelX windows j + prev.labelWidth by omega)
    rw [hhit, Nat.add_sub_cancel, hprev]
    rfl

/-- **A click on a label selects its window** exactly from the column of the label on.  In the
four columns of the box before that, the label before it is found first. -/
theorem taskbarClick_label (wm : WindowManager) {i mx : ℕ} {win : WmWindow}
    (h : wm.windows[i]? = some win) (hlo : labelX wm.windows i - 4 ≤ mx)
    (hhi : mx < labelX wm.windows i - 4 + win.boxWidth) :
    labelAt mx LABELS_X wm.windows = some win.id ↔
      i = 0 ∨ labelX wm.windows i ≤ mx ∨ (wm.windows[i - 1]?).map WmWindow.id = some win.id := by
  rw [labelAt_box h hlo hhi, ← or_assoc]
  split
  · rename_i hin
    exact ⟨fun _ => .inl hin, fun _ => rfl⟩
  · rename_i hin
    simp only [hin, false_or]

/-- Two windows with titles of five letters, the first one focused. -/
def twoLabels : WindowManager :=
  { reaching with
    windows := [
      ⟨0, 0, 0, 1, 1, Vector.replicate _ 0x41, 5, by decide, Array.replicate 3 0,
        ⟨1, 1, .rgb, 3, 1⟩, none, true, 0⟩,
      ⟨1, 0, 0, 1, 1, Vector.replicate _ 0x42, 5, by decide, Array.replicate 3 0,
        ⟨1, 1, .rgb, 3, 1⟩, none, true, 0⟩]
    nextId := 2
    cursor := ⟨106, 760, 1024, 768, Vector.replicate _ .black, false⟩
    screenInfo := ⟨1024, 768, .rgb, 3, 1024⟩
    backBuf := Array.replicate (1024 * 768 * 3) 0
    bgCache := Array.replicate (1024 * 768 * 3) 0 }

theorem taskbarClick_label_twoLabels : labelAt 110 LABELS_X twoLabels.windows = some 1 :=
  (twoLabels.taskbarClick_label (i := 1) rfl (by decide) (by decide)).2 (.inr (.inl (by decide)))

/-- The label of the second window is in column 110, so its box starts in column 106; but a click
there selects the first window. -/
theorem taskbarClick_label_before :
    ¬ ∀ (wm : WindowManager) (i mx : ℕ) (win : WmWindow), wm.windows[i]? = some win →
      labelX wm.windows i - 4 + win.boxWidth ≤ wm.screenInfo.width →
      labelX wm.windows i - 4 ≤ mx → mx < labelX wm.windows i - 4 + win.boxWidth →
      labelAt mx LABELS_X wm.windows = some win.id := by
  intro h
  have := h twoLabels 1 106 _ rfl (by decide) (by decide) (by decide)
  rw [show labelAt 106 LABELS_X twoLabels.windows = some 0 from by decide] at this
  cases this

/-- The box that `draw_taskbar` fills behind the label of the `i`-th window, if it is focused. -/
def labelBox (wm : WindowManager) (i : ℕ) (win : WmWindow) : Rect :=
  ⟨labelX wm.windows i - 4, wm.screenInfo.height - wm.taskbarHeight + 2, win.boxWidth,
    wm.taskbarHeight - 4⟩

/-- `draw_taskbar` fills the box of the focused window and writes its title over it. -/
theorem drawTaskbar_labelBox [BasicFonts] (wm : WindowManager) {info : FrameBufferInfo}
    (hheight : info.height = wm.screenInfo.height) {i : ℕ} {win : WmWindow}
    (h : wm.windows[i]? = some win) (buf : Buf) :
    let box := wm.labelBox i win
    drawTaskbar buf info wm.taskbarHeight wm.windows (some win.id) = (do
      let buf ← drawTaskbar buf info wm.taskbarHeight (wm.windows.take i) (some win.id)
      let buf ← fillRect buf info box.x box.y box.width box.height ⟨0x28, 0x32, 0x44⟩
      let buf ← drawText buf info (box.x + 4) (box.y + 4) win.titleStr ⟨0xFF, 0xFF, 0xFF⟩
      drawLabels buf info (info.height - wm.taskbarHeight) wm.taskbarHeight (some win.id)
        (labelX wm.windows (i + 1)) (wm.windows.drop (i + 1))) := by
  have hx : labelX wm.windows i - 4 + 4 = labelX wm.windows i :=
    Nat.sub_add_cancel ((show 4 ≤ LABELS_X by decide).trans (Nat.le_add_right _ _))
  rw [drawTaskbar_at info wm.taskbarHeight _ h, labelX_succ h]
  simp only [drawLabels, labelBox, hx, hheight, if_true, Option.bind_eq_bind]
  rfl

/-- **A click on the box of a label** gives the focus to its window, or, in the four columns
before the label, to the window of the label before. -/
theorem handleClick_labelBox [BasicFonts] (wm : WindowManager) {i : ℕ} {win : WmWindow}
    (h : wm.windows[i]? = some win)
    (hp : (wm.labelBox i win).Contains (asUsize wm.cursor.x, asUsize wm.cursor.y)) :
    wm.handleClick =
      ((if i = 0 ∨ labelX wm.windows i ≤ asUsize wm.cursor.x then some win.id
        else (wm.windows[i - 1]?).map WmWindow.id).elim (some wm) wm.focusWindow).map
          fun wm => { wm with needsComposite := true } := by
  have hstrip : wm.screenInfo.height - wm.taskbarHeight ≤ asUsize wm.cursor.y :=
    (Nat.le_add_right _ 2).trans hp.2.2.1
  rw [handleClick_eq, clickTarget_eq_taskbar.2 hstrip]
  change (wm.handleTaskbarClick (asUsize wm.cursor.x)).bind _ = _
  rw [handleTaskbarClick_eq, labelAt_box h hp.1 hp.2.1]
  exact Option.map_eq_bind.symm

end WindowManager

end ROs
