import ROs.Framebuffer.ConsoleGrid
import ROs.Wm.Painter
import ROs.Wm.Statics

/-!
# The text of a window

`Statics.Displays` says that the console of a window shows a character grid.  `init_console` makes
it show the blank grid, and every function of the console keeps it, as `Console.Shows` says of the
console itself: a list of calls does to the grid what its console operations do
(`Displays.run`).
-/

namespace ROs

/-- A window with room for a character holds the pixels of its content. -/
theorem WmWindow.Valid.placed {screen : FrameBufferInfo} {win : WmWindow} (hv : win.Valid screen)
    (hf : screen.FormatFits) (hrows : 0 < win.contentRect.height / FONT_HEIGHT)
    (hcols : 0 < win.contentRect.width / FONT_WIDTH) :
    Console.Placed win.bufInfo win.buf.size win.contentRect := by
  refine ⟨hv.fits hf, ?_, ?_, fun p hp => (hv.live_of_onScreen (hv.onScreen_of_content hp)).2⟩
  · have hwidth := Nat.pos_of_div_pos hcols
    rw [hv.bufInfo_eq]
    simp only [contentRect, WINDOW_PADDING] at hwidth ⊢
    omega
  · have hheight := Nat.pos_of_div_pos hrows
    rw [hv.bufInfo_eq]
    simp only [contentRect, WINDOW_PADDING] at hheight ⊢
    omega

namespace Statics

/-- The calls of the console functions for one window, and `mark_dirty`. -/
def Op.onConsole (winId : UInt64) : Op → Bool
  | .consoleWrite id _ | .consoleShowCursor id | .consoleHideCursor id | .consoleClear id
  | .markDirty id => id = winId
  | _ => false

/-- The console operation that a call is, if it is one. -/
def Op.console : Op → List Console.Op
  | .consoleWrite _ s => [.writeStr s]
  | .consoleShowCursor _ => [.drawCursor]
  | .consoleHideCursor _ => [.eraseCursor]
  | .consoleClear _ => [.clear]
  | _ => []

variable [BasicFonts]

/-- The console of the window shows the grid, with its cursor drawn or not. -/
structure Displays (st : Statics) (winId : ℕ) (info : FrameBufferInfo) (n : ℕ) (content : Rect)
    (shown : Bool) (g : Grid (content.height / FONT_HEIGHT) (content.width / FONT_WIDTH)) :
    Prop where
  placed : Console.Placed info n content
  window : ∃ wm win console, st.wm = some wm ∧
    wm.windows.find? (fun win => win.id = winId) = some win ∧ win.bufInfo = info ∧
      win.console = some console ∧ console.cursorVisible = shown ∧
        Console.Shows info n content console win.buf g

variable {st : Statics} {winId : ℕ} {info : FrameBufferInfo} {n : ℕ} {content : Rect}
  {shown shown' : Bool}
  {g g' : Grid (content.height / FONT_HEIGHT) (content.width / FONT_WIDTH)}

omit [BasicFonts] in
/-- The window that is replaced is the one that is found by its id. -/
theorem exists_modifyWindow_of_find {f : WmWindow → Option WmWindow} {windows : List WmWindow}
    {win win' : WmWindow} (hfind : windows.find? (fun win => win.id = winId) = some win)
    (hf : f win = some win') (hid : win'.id = win.id) :
    ∃ windows', WindowManager.modifyWindow f winId windows = some windows' ∧
      windows'.find? (fun win => win.id = winId) = some win' := by
  induction windows with
  | nil => cases hfind
  | cons w windows ih =>
    rw [WindowManager.modifyWindow]
    by_cases hw : w.id = winId
    · rw [List.find?_cons_of_pos (by simpa using hw)] at hfind
      cases hfind
      refine ⟨win' :: windows, ?_, List.find?_cons_of_pos (by simpa using hid.trans hw)⟩
      rw [if_pos hw, hf]
      rfl
    · rw [List.find?_cons_of_neg (by simpa using hw)] at hfind
      obtain ⟨windows', hmodify, hfind'⟩ := ih hfind
      refine ⟨w :: windows', ?_, ?_⟩
      · rw [if_neg hw, hmodify]
        rfl
      · rw [List.find?_cons_of_neg (by simpa using hw), hfind']

/-- The console that `init_console` makes shows the blank grid. -/
theorem displays_initConsole {screen : FrameBufferInfo} {wm : WindowManager} {win : WmWindow}
    (fb : Option FrameBufferState)
    (hfind : wm.windows.find? (fun win => win.id = winId) = some win) (hv : win.Valid screen)
    (hf : screen.FormatFits) (hcontent : win.contentRect = content)
    (hrows : 0 < content.height / FONT_HEIGHT) (hcols : 0 < content.width / FONT_WIDTH) :
    ∃ st', (Statics.mk (some wm) fb).initConsole winId = some st' ∧
      st'.Displays winId win.bufInfo win.buf.size content false (Grid.blank hrows hcols) := by
  subst hcontent
  have hplaced := hv.placed hf hrows hcols
  obtain ⟨console, buf, hnew, hvis, hshows⟩ := Console.exists_new hplaced hrows hcols rfl
  obtain ⟨F, hF, hinit⟩ : ∃ F : WmWindow → Option WmWindow,
      F win = some { win with buf := buf, console := some console } ∧
        wm.initConsole winId = (WindowManager.modifyWindow F winId wm.windows).bind fun windows =>
          some { wm with windows } := by
    refine ⟨_, ?_, rfl⟩
    exact Option.bind_eq_some_iff.2 ⟨_, hnew, rfl⟩
  obtain ⟨windows', hmodify, hfind'⟩ := exists_modifyWindow_of_find hfind hF rfl
  refine ⟨_, updateWm_of_eq ?_, hplaced, { wm with windows := windows' },
    { win with buf := buf, console := some console }, console, rfl, hfind', rfl, rfl, hvis, hshows⟩
  rw [hinit, hmodify]
  rfl

/-- A function of the console that turns one grid into another does so on the display. -/
theorem Displays.updateConsole (h : st.Displays winId info n content shown g)
    {f : Console → Buf → FrameBufferInfo → Option (Console × Buf)}
    (hf : ∀ console buf, console.cursorVisible = shown →
      Console.Shows info n content console buf g → ∃ console' buf',
        f console buf info = some (console', buf') ∧ console'.cursorVisible = shown' ∧
          Console.Shows info n content console' buf' g') :
    ∃ st', st.updateConsole winId f = some st' ∧
      st'.Displays winId info n content shown' g' := by
  obtain ⟨wm, win, console, hwm, hfind, rfl, hconsole, hv, hshows⟩ := h.window
  obtain ⟨console', buf', hcall, hv', hshows'⟩ := hf console win.buf hv hshows
  obtain ⟨F, hF, hupdate⟩ := exists_updateConsole_eq st winId f
  obtain ⟨windows', hmodify, hfind'⟩ :=
    exists_modifyWindow_of_find hfind ((hF _ _).2 (.inr ⟨_, _, _, hconsole, hcall, rfl⟩)) rfl
  obtain ⟨owm, fb⟩ := st
  cases hwm
  rw [hupdate]
  refine ⟨_, updateWm_of_eq ?_, h.placed, { wm with windows := windows', needsComposite := true },
    { win with buf := buf', console := some console', dirty := true }, console', rfl, hfind', rfl,
    rfl, hv', hshows'⟩
  rw [hmodify]
  rfl

/-- `mark_dirty` changes nothing that is displayed. -/
theorem Displays.markDirty (h : st.Displays winId info n content shown g) :
    ∃ st', st.markDirty winId = some st' ∧ st'.Displays winId info n content shown g := by
  obtain ⟨wm, win, console, hwm, hfind, hinfo, hconsole, hv, hshows⟩ := h.window
  obtain ⟨windows', hmodify, hfind'⟩ := @exists_modifyWindow_of_find winId
    (fun win => some { win with dirty := true }) _ _ { win with dirty := true } hfind rfl rfl
  obtain ⟨owm, fb⟩ := st
  cases hwm
  refine ⟨_, updateWm_of_eq ?_, h.placed, { wm with windows := windows', needsComposite := true },
    { win with dirty := true }, console, rfl, hfind', hinfo, hconsole, hv, hshows⟩
  rw [WindowManager.markDirty, hmodify]
  rfl

/-- An operation on the console of the window. -/
theorem Displays.performConsole (h : st.Displays winId info n content shown g) (op : Console.Op)
    {ops : List Console.Op} (hops : Console.Disciplined shown (op :: ops)) :
    ∃ st', st.updateConsole winId (fun console buf info => Console.perform info (console, buf) op) =
      some st' ∧ st'.Displays winId info n content op.showsCursor (g.perform op) :=
  h.updateConsole fun _ _ hv hs => hs.perform h.placed op (hv ▸ hops)

/-- One call. -/
theorem Displays.perform {winId : UInt64} {op : Op} {ops : List Console.Op}
    (h : st.Displays winId.toNat info n content shown g) (hop : op.onConsole winId = true)
    (hops : Console.Disciplined shown (op.console ++ ops)) :
    ∃ st', st.perform op = some st' ∧
      st'.Displays winId.toNat info n content
        (op.console.foldl (fun _ op => op.showsCursor) shown) (op.console.foldl Grid.perform g) ∧
      Console.Disciplined (op.console.foldl (fun _ op => op.showsCursor) shown) ops := by
  cases op with
  | consoleWrite id s =>
    obtain rfl : id = winId := by simpa [Op.onConsole] using hop
    obtain ⟨st', hst, h'⟩ := h.performConsole (.writeStr s) hops
    exact ⟨st', hst, h', hops.tail⟩
  | consoleShowCursor id =>
    obtain rfl : id = winId := by simpa [Op.onConsole] using hop
    obtain ⟨st', hst, h'⟩ := h.performConsole .drawCursor hops
    exact ⟨st', hst, h', hops.tail⟩
  | consoleHideCursor id =>
    obtain rfl : id = winId := by simpa [Op.onConsole] using hop
    obtain ⟨st', hst, h'⟩ := h.performConsole .eraseCursor hops
    exact ⟨st', hst, h', hops.tail⟩
  | consoleClear id =>
    obtain rfl : id = winId := by simpa [Op.onConsole] using hop
    obtain ⟨st', hst, h'⟩ := h.performConsole .clear hops
    exact ⟨st', hst, h', hops.tail⟩
  | markDirty id =>
    obtain rfl : id = winId := by simpa [Op.onConsole] using hop
    obtain ⟨st', hst, h'⟩ := h.markDirty
    exact ⟨st', hst, h', hops⟩
  | createWindow | initConsole | handleMouse | composite => cases hop

/-- **Calls of the console functions do to the grid what their console operations do.** -/
theorem Displays.run {winId : UInt64} {calls : List Op}
    (h : st.Displays winId.toNat info n content shown g)
    (hcalls : ∀ op ∈ calls, op.onConsole winId = true)
    (hops : Console.Disciplined shown (calls.flatMap Op.console)) :
    ∃ st', calls.foldlM Statics.perform st = some st' ∧
      st'.Displays winId.toNat info n content
        ((calls.flatMap Op.console).foldl (fun _ op => op.showsCursor) shown)
        ((calls.flatMap Op.console).foldl Grid.perform g) := by
  induction calls generalizing st shown g with
  | nil => exact ⟨st, rfl, h⟩
  | cons op calls ih =>
    rw [List.forall_mem_cons] at hcalls
    obtain ⟨st₁, hst₁, h₁, hops₁⟩ := h.perform hcalls.1 hops
    obtain ⟨st', hst', h'⟩ := ih h₁ hcalls.2 hops₁
    refine ⟨st', ?_, ?_⟩
    · rw [List.foldlM_cons, hst₁]
      exact hst'
    · rwa [List.flatMap_cons, List.foldl_append, List.foldl_append]

end Statics

end ROs
