import ROs.Wm.Shown
import ROs.Framebuffer.ConsoleGrid
import ROs.Lib.Trace

/-!
# Stale screens

The idle loop repaints the screen when `needs_composite` is set.  Every operation of the module
that changes something visible either repaints the screen itself or sets the flag, except one:
`init_console` clears the content of a window and leaves the flag as it is.

* `WindowManager.not_shown_of_change` : **a visible change that is not repainted leaves a stale
  screen.**
* `Statics.shown_of_run` : **no stale screen**: in a run in which no `init_console` clears a
  visible pixel while the flag is down, the screen shows what a fresh composite would show
  whenever the flag is down.
* `Statics.initConsole_stale` : a run in which `init_console` leaves a stale screen.
-/

namespace ROs

variable {info : FrameBufferInfo} {win win' : WmWindow}

/-! ### The colours of a scene -/

namespace WmWindow

/-- The colour of the window at a point of the screen. -/
def colorAt (win : WmWindow) (p : ℕ × ℕ) : Color :=
  win.bufInfo.color win.buf (p.1 - win.x, p.2 - win.y)

theorem SameFrame.id_eq (h : win.SameFrame win') : win'.id = win.id := by
  obtain ⟨buf, console, dirty, rfl⟩ := h
  rfl

theorem SameFrame.rect_eq (h : win.SameFrame win') : win'.rect = win.rect := by
  obtain ⟨buf, console, dirty, rfl⟩ := h
  rfl

/-- Every point of the window lies in its buffer. -/
theorem Valid.live (h : win.Valid info) {p : ℕ × ℕ} (hp : win.rect.Contains p) :
    win.bufInfo.Live win.buf.size (p.1 - win.x, p.2 - win.y) := by
  obtain ⟨hx, hx', hy, hy'⟩ := hp
  simp only [rect] at hx hx' hy hy'
  refine h.live_of_onScreen ?_
  rw [h.bufInfo_eq]
  exact ⟨by dsimp only; omega, by dsimp only; omega⟩

/-- A window with another buffer of the same length is as valid. -/
theorem Valid.sameFrame (h : win.Valid info) (hsame : win.SameFrame win')
    (hsize : win'.buf.size = win.buf.size) : win'.Valid info := by
  obtain ⟨buf, console, dirty, rfl⟩ := hsame
  exact ⟨h.bufInfo_eq, hsize.trans h.size_eq, hsize ▸ h.size_le, h.width_le, h.height_le⟩

end WmWindow

/-- Windows that keep their places cover the same points. -/
theorem topmost_congr {R : WmWindow → WmWindow → Prop} (hR : ∀ win win', R win win' →
    win.SameFrame win') {windows windows' : List WmWindow} (h : List.Forall₂ R windows windows')
    (p : ℕ × ℕ) : Option.Rel R (topmost windows p) (topmost windows' p) := by
  unfold topmost
  have hrev := List.forall₂_reverse_iff.2 h
  generalize windows.reverse = as at hrev
  generalize windows'.reverse = bs at hrev
  clear h
  induction hrev with
  | nil => exact .none
  | @cons win win' as bs hwin hrest ih =>
    rw [List.find?_cons, List.find?_cons, (hR _ _ hwin).rect_eq]
    split
    · exact .some hwin
    · exact ih

variable [BasicFonts]

namespace WindowManager

variable {wm wm' : WindowManager} {fb fb' backBuf : Buf} {windows : List WmWindow}
  {R : WmWindow → WmWindow → Prop}

/-- The scene after a change of the contents of windows: at every point it has the colour of the
window that is on top there, or is as it was. -/
theorem exists_scene_change (hf : info.Fits) (hn : info.Holds wm.bgCache.size)
    (hscene : wm.scene info = some backBuf) (hv : ∀ win ∈ wm.windows, win.Valid info)
    (hv' : ∀ win ∈ windows, win.Valid info) (hR : ∀ win win', R win win' → win.SameFrame win')
    (h : List.Forall₂ R wm.windows windows) :
    ∃ backBuf', ({ wm with windows } : WindowManager).scene info = some backBuf' ∧
      backBuf'.size = backBuf.size ∧ ∀ p, info.OnScreen p →
        topmost wm.windows p = none ∧ info.color backBuf' p = info.color backBuf p ∨
        ∃ win win', topmost wm.windows p = some win ∧ R win win' ∧
          info.color backBuf p = win.colorAt p ∧ info.color backBuf' p = win'.colorAt p := by
  have hfit := offsetsFit_of_scene hscene
  have hsame : List.Forall₂ WmWindow.SameFrame wm.windows windows := h.imp hR
  have hfit' : ∀ win ∈ windows, win.OffsetsFit info := by
    refine forall_of_forall₂ hsame (fun win win' hwin hframe => ?_) hfit
    obtain ⟨buf, console, dirty, rfl⟩ := hframe
    exact hwin
  obtain ⟨hback, hsize⟩ := size_of_scene hf hscene
  obtain ⟨tb, b, hbar, hb, -, -, hlook⟩ := exists_scene wm hf hback hn hv hfit
  cases hscene.symm.trans hb
  obtain ⟨tb', backBuf', hbar', hscene', -, hsize', hlook'⟩ :=
    exists_scene { wm with windows } hf hback hn hv' hfit'
  have htb : tb' = tb := by
    rw [drawTaskbar] at hbar hbar'
    simp only [drawLabels_congr _ _ _ _ _ hsame] at hbar'
    exact Option.some.inj (hbar'.symm.trans hbar)
  have hcolor : ∀ win : WmWindow, win.Valid info → ∀ buf p,
      info.pixel buf p = win.bufInfo.pixel win.buf (p.1 - win.x, p.2 - win.y) →
        info.color buf p = win.colorAt p := fun win hwin buf p hpix => by
    rw [FrameBufferInfo.color, hpix, WmWindow.colorAt, FrameBufferInfo.color, hwin.bufInfo_eq]
    rfl
  refine ⟨backBuf', hscene', hsize'.trans hsize.symm, fun p hp => ?_⟩
  have hp₁ := hlook p hp
  have hp₂ := hlook' p hp
  have htop := topmost_congr hR h p
  cases ht : topmost wm.windows p with
  | none =>
    cases ht' : topmost windows p with
    | none =>
      rw [ht] at hp₁
      rw [ht'] at hp₂
      exact .inl ⟨rfl, by rw [FrameBufferInfo.color, FrameBufferInfo.color, hp₁, hp₂, htb]⟩
    | some win' =>
      rw [ht, ht'] at htop
      cases htop
  | some win =>
    cases ht' : topmost windows p with
    | none =>
      rw [ht, ht'] at htop
      cases htop
    | some win' =>
      rw [ht, ht'] at htop
      cases htop with
      | some hwin =>
        rw [ht] at hp₁
        rw [ht'] at hp₂
        exact .inr ⟨win, win', rfl, hwin, hcolor win (hv win (mem_of_topmost ht)) _ p hp₁,
          hcolor win' (hv' win' (mem_of_topmost ht')) _ p hp₂⟩

/-- A change that no colour on the screen shows keeps the screen clean. -/
theorem Clean.change (hf : info.Fits) (hn : info.Holds wm.bgCache.size)
    (h : Clean info wm fb backBuf) (hv : ∀ win ∈ wm.windows, win.Valid info)
    (hv' : ∀ win ∈ windows, win.Valid info) (hR : ∀ win win', R win win' → win.SameFrame win')
    (hrel : List.Forall₂ R wm.windows windows)
    (hcolor : ∀ p win win', info.OnScreen p → topmost wm.windows p = some win → R win win' →
      win'.colorAt p = win.colorAt p) :
    ∃ backBuf', Clean info { wm with windows } fb backBuf' := by
  obtain ⟨backBuf', hscene, hsize, hlook⟩ := exists_scene_change hf hn h.scene_eq hv hv' hR hrel
  have hseen : ∀ p, info.seen backBuf' p = info.seen backBuf p := fun p => by
    rw [FrameBufferInfo.seen, FrameBufferInfo.seen, hsize]
    split
    · rename_i hp
      rcases hlook p hp.1 with ⟨-, heq⟩ | ⟨win, win', htop, hwin, hold, hnew⟩
      · exact heq
      · rw [hold, hnew, hcolor p win win' hp.1 htop hwin]
    · rfl
  exact ⟨backBuf', {
    scene_eq := hscene
    size_eq := h.size_eq.trans hsize.symm
    addressable := h.addressable
    visible := h.visible
    saved := fun sy hsy sx hsx => by
      rw [hseen]
      exact h.saved sy hsy sx hsx
    seen_eq := fun p hp => by
      rw [hseen]
      exact h.seen_eq p (hsize ▸ hp) }⟩

/-- **A visible change that is not repainted leaves a stale screen.** -/
theorem not_shown_of_change (hf : info.Fits) (hn : info.Holds wm.bgCache.size)
    (h : Clean info wm fb backBuf) (hv : ∀ win ∈ wm.windows, win.Valid info)
    (hv' : ∀ win ∈ windows, win.Valid info) (hR : ∀ win win', R win win' → win.SameFrame win')
    (hrel : List.Forall₂ R wm.windows windows) {p : ℕ × ℕ} (hp : info.OnScreen p)
    (hsprite : wm.cursor.spriteLayer p = none) {win : WmWindow}
    (htop : topmost wm.windows p = some win)
    (hcolor : ∀ win', R win win' → win'.colorAt p ≠ win.colorAt p) :
    ¬ Shown info { wm with windows } fb := by
  rintro ⟨wm', fresh, hcomp, hread⟩
  obtain ⟨backBuf', hscene, hsize, hlook⟩ := exists_scene_change hf hn h.scene_eq hv hv' hR hrel
  obtain ⟨savedBg, fresh', hcomp', hfresh, -, hpix⟩ :=
    exists_composite hf hscene h.addressable
      (h.size_eq.trans hsize.symm)
  cases hcomp.symm.trans hcomp'
  have hlive : info.Live backBuf.size p := by
    rw [(size_of_scene hf h.scene_eq).2]
    exact hn p hp
  -- the screen still has the old colour of the window, the fresh composite the new one
  have hold := h.seen_eq p hlive
  have hnew := FrameBufferInfo.color_of_look hf.formatFits (hpix p (hsize.symm ▸ hlive))
  rw [show ({ wm with windows } : WindowManager).cursor.spriteLayer p = none from hsprite] at hnew
  rw [hsprite] at hold
  have heq := hread p hp
  rw [FrameBufferInfo.readPixel_eq_seen hf,
    FrameBufferInfo.readPixel_eq_seen hf, hold, FrameBufferInfo.seen,
    FrameBufferInfo.seen, hfresh, hsize, if_pos hlive, if_pos hlive, hnew, Option.some.injEq] at heq
  rcases hlook p hp with ⟨hnone, -⟩ | ⟨win₁, win', htop', hwin, hcol, hcol'⟩
  · rw [htop] at hnone
    cases hnone
  · cases htop.symm.trans htop'
    exact hcolor win' hwin (by rw [← hcol', ← hcol]; exact heq.symm)

/-! ### `init_console` -/

/-- `win'` is `win` with its content cleared. -/
structure Cleared (info : FrameBufferInfo) (win win' : WmWindow) : Prop where
  sameFrame : win.SameFrame win'
  size_eq : win'.buf.size = win.buf.size
  colorAt_eq : win.Valid info → ∀ p, win.rect.Contains p → win'.colorAt p =
    if win.contentRect.Contains (p.1 - win.x, p.2 - win.y) then .black else win.colorAt p

omit [BasicFonts] in
/-- `Console::new` clears the content of the window. -/
theorem cleared_of_new (hf : info.FormatFits) {console : Console} {buf : Buf}
    (h : Console.new win.buf win.bufInfo win.contentRect = some (console, buf)) :
    Cleared info win { win with buf, console := some console } := by
  obtain ⟨buf', hfill, h⟩ := Option.bind_eq_some_iff.1 h
  cases h
  refine ⟨⟨_, _, _, rfl⟩, keepsSize_fillRect _ _ _ _ _ _ _ hfill, fun hv p hp => ?_⟩
  have hfits := hv.fits hf
  obtain ⟨buf₁, hfill₁, -, hcolor⟩ := FrameBufferInfo.exists_color_of_paints hfits.formatFits
    (paints_fillRect hfits win.contentRect.x win.contentRect.y win.contentRect.width
      win.contentRect.height .black) (show win.buf.size = _ from rfl)
  cases hfill.symm.trans hfill₁
  have hcol := hcolor _ (hv.live hp)
  rw [Layer.fill_apply] at hcol
  refine Eq.trans (show _ = win.bufInfo.color buf (p.1 - win.x, p.2 - win.y) from rfl) ?_
  rw [hcol]
  split
  · simp
  · rfl

/-- What `init_console` may do to a window. -/
def Initialised (info : FrameBufferInfo) (id : ℕ) (win win' : WmWindow) : Prop :=
  win' = win ∨ win.id = id ∧ Cleared info win win'

omit [BasicFonts] in
theorem Initialised.sameFrame {id : ℕ} (h : Initialised info id win win') :
    win.SameFrame win' := by
  rcases h with rfl | ⟨-, hclear⟩
  · exact ⟨_, _, _, rfl⟩
  · exact hclear.sameFrame

omit [BasicFonts] in
theorem Initialised.valid {id : ℕ} (h : Initialised info id win win') (hv : win.Valid info) :
    win'.Valid info := by
  rcases h with rfl | ⟨-, hclear⟩
  · exact hv
  · exact hv.sameFrame hclear.sameFrame hclear.size_eq

omit [BasicFonts] in
/-- **`init_console`** clears the content of a window, and does not touch the flag. -/
theorem initConsole_eq_some (hf : info.FormatFits) {id : ℕ} (h : wm.initConsole id = some wm') :
    ∃ windows, wm' = { wm with windows } ∧
      List.Forall₂ (Initialised info id) wm.windows windows := by
  obtain ⟨windows, hmodify, h⟩ := Option.bind_eq_some_iff.1 h
  cases h
  refine ⟨windows, rfl, (forall₂_of_modifyWindow hmodify).imp fun win win' hwin => ?_⟩
  rcases hwin with rfl | ⟨hid, hwin⟩
  · exact .inl rfl
  · obtain ⟨⟨console, buf⟩, hnew, hwin⟩ := Option.bind_eq_some_iff.1 hwin
    cases hwin
    exact .inr ⟨hid, cleared_of_new hf hnew⟩

/-- Every visible pixel of the content of the window is black. -/
def ContentBlack (info : FrameBufferInfo) (wm : WindowManager) (id : ℕ) : Prop :=
  ∀ p win, info.OnScreen p → topmost wm.windows p = some win → win.id = id →
    win.contentRect.Contains (p.1 - win.x, p.2 - win.y) → win.colorAt p = .black

/-- Clearing what is black already keeps the screen clean. -/
theorem Clean.initConsole (hf : info.Fits) (hn : info.Holds wm.bgCache.size)
    (h : Clean info wm fb backBuf) (hv : ∀ win ∈ wm.windows, win.Valid info) {id : ℕ}
    (hblack : ContentBlack info wm id)
    (hrel : List.Forall₂ (Initialised info id) wm.windows windows) :
    ∃ backBuf', Clean info { wm with windows } fb backBuf' := by
  refine h.change hf hn hv (forall_of_forall₂ hrel (fun win win' hwin hi => hi.valid hwin) hv)
    (fun win win' hi => hi.sameFrame) hrel fun p win win' hp htop hi => ?_
  rcases hi with rfl | ⟨hid, hclear⟩
  · rfl
  · rw [hclear.colorAt_eq (hv win (mem_of_topmost htop)) p (contains_of_topmost htop)]
    split
    · rename_i hin
      exact (hblack p win hp htop hid hin).symm
    · rfl

/-! ### Runs of the module -/

/-- What every run of the module keeps. -/
structure Coherent (info : FrameBufferInfo) (wm : WindowManager) (fb : Buf) : Prop where
  screenInfo_eq : wm.screenInfo = info
  valid : ∀ win ∈ wm.windows, win.Valid info
  /-- The buffers hold every pixel of the screen. -/
  holds : info.Holds wm.bgCache.size
  /-- The screen is clean unless a composite is pending. -/
  clean : wm.needsComposite = false → ∃ backBuf, Clean info wm fb backBuf

/-- A new window manager starts with a composite pending. -/
theorem coherent_of_new (hstride : info.stride = info.width) (h : new info = some wm) (fb : Buf) :
    Coherent info wm fb := by
  obtain ⟨hwindows, -, hinfo, hneeds, -, -, hcache⟩ := new_eq_some h
  refine ⟨hinfo, by rw [hwindows]; exact nofun, ?_, fun hn => ?_⟩
  · rw [hcache]
    exact FrameBufferInfo.holds_of_stride_eq hstride
  · rw [hneeds] at hn
    cases hn

end WindowManager

namespace Statics

open WindowManager

variable {wm : WindowManager} {fb : Buf} {st st₀ : Statics}

/-- The call does not clear a visible pixel that is not black, unless a composite is pending.
Only `init_console` could. -/
def Harmless (self : Statics) : Op → Prop
  | .initConsole winId => ∀ wm fb, self.wm = some wm → self.fb = some fb →
      wm.needsComposite = true ∨ ContentBlack fb.info wm winId.toNat
  | _ => True

theorem coherent_updateConsole (hc : Coherent info wm fb) {winId : ℕ}
    {f : Console → Buf → FrameBufferInfo → Option (Console × Buf)} (hf : Console.KeepsSize f)
    (h : (Statics.mk (some wm) (some ⟨fb, info⟩)).updateConsole winId f = some st) :
    ∃ wm' fb', st = ⟨some wm', some ⟨fb', info⟩⟩ ∧ Coherent info wm' fb' := by
  obtain ⟨F, hF, heq⟩ := exists_updateConsole_eq ⟨some wm, some ⟨fb, info⟩⟩ winId f
  rw [heq] at h
  obtain ⟨wm', hupdate, rfl⟩ := updateWm_eq_some h
  obtain ⟨windows, hmodify, hupdate⟩ := Option.bind_eq_some_iff.1 hupdate
  cases hupdate
  have hvalid : ∀ win ∈ windows, win.Valid info := by
    refine forall_of_modifyWindow hmodify (fun win win' hwin hd => ?_) hc.valid
    rcases (hF win win').1 hd with ⟨-, rfl⟩ | ⟨console, console', buf, -, hcall, rfl⟩
    · exact hwin
    · exact hwin.sameFrame ⟨_, _, _, rfl⟩ (hf _ _ _ _ _ hcall)
  exact ⟨_, fb, rfl, hc.screenInfo_eq, hvalid, hc.holds, nofun⟩

/-- What a composite leaves behind is coherent. -/
theorem coherent_of_composite (hf : info.Fits) {wm' : WindowManager} {fb' : Buf}
    (hinfo : wm.screenInfo = info) (hv : ∀ win ∈ wm.windows, win.Valid info)
    (hn : info.Holds wm.bgCache.size) (h : wm.composite fb info = some (wm', fb')) :
    Coherent info wm' fb' := by
  obtain ⟨savedBg, rfl⟩ := composited_of_composite hf h
  obtain ⟨backBuf, hclean, -⟩ := clean_of_composite hf h
  refine ⟨hinfo, fun win hwin => ?_, hn, fun _ => ⟨backBuf, hclean⟩⟩
  obtain ⟨win', hwin', rfl⟩ := List.mem_map.1 hwin
  exact (hv win' hwin').sameFrame ⟨_, _, _, rfl⟩ rfl

/-- **One call of the module.** -/
theorem coherent_step (hf : info.Fits) (hc : Coherent info wm fb) {op : Op}
    (hop : (Statics.mk (some wm) (some ⟨fb, info⟩)).Harmless op)
    (h : (Statics.mk (some wm) (some ⟨fb, info⟩)).perform op = some st) :
    ∃ wm' fb', st = ⟨some wm', some ⟨fb', info⟩⟩ ∧ Coherent info wm' fb' := by
  cases op with
  | createWindow x y width height title ownerTask =>
    obtain ⟨wm', id, hcreate, rfl⟩ := perform_createWindow_eq_some h
    obtain ⟨win, -, -, hwin, rfl⟩ := createWindow_eq_some (hc.screenInfo_eq ▸ hf.formatFits)
      (Nat.le_of_lt_succ width.toNat_lt) (Nat.le_of_lt_succ height.toNat_lt) hcreate
    refine ⟨_, fb, rfl, hc.screenInfo_eq, fun win' hwin' => ?_, hc.holds, nofun⟩
    rcases List.mem_append.1 hwin' with hwin' | hwin'
    · exact hc.valid win' hwin'
    · rw [List.mem_singleton.1 hwin']
      exact hc.screenInfo_eq ▸ hwin
  | initConsole winId =>
    obtain ⟨wm', hinit, rfl⟩ := updateWm_eq_some h
    obtain ⟨windows, rfl, hrel⟩ := initConsole_eq_some hf.formatFits hinit
    refine ⟨_, fb, rfl, hc.screenInfo_eq,
      forall_of_forall₂ hrel (fun win win' hwin hi => hi.valid hwin) hc.valid, hc.holds,
      fun hneeds => ?_⟩
    obtain ⟨backBuf, hclean⟩ := hc.clean hneeds
    rcases hop wm ⟨fb, info⟩ rfl rfl with hpending | hblack
    · exact absurd (hpending.symm.trans hneeds) (by decide)
    · exact hclean.initConsole hf hc.holds hc.valid hblack hrel
  | consoleWrite winId s => exact coherent_updateConsole hc (Console.keepsSize_writeStr _) h
  | consoleShowCursor winId => exact coherent_updateConsole hc Console.keepsSize_drawCursor h
  | consoleHideCursor winId => exact coherent_updateConsole hc Console.keepsSize_eraseCursor h
  | consoleClear winId => exact coherent_updateConsole hc Console.keepsSize_clear h
  | markDirty winId =>
    obtain ⟨wm', hmark, rfl⟩ := updateWm_eq_some h
    obtain ⟨windows, hmodify, hmark⟩ := Option.bind_eq_some_iff.1 hmark
    cases hmark
    refine ⟨_, fb, rfl, hc.screenInfo_eq, forall_of_modifyWindow hmodify (fun win win' hwin hd => ?_)
      hc.valid, hc.holds, nofun⟩
    cases hd
    exact hwin.sameFrame ⟨_, _, _, rfl⟩ rfl
  | handleMouse event =>
    obtain ⟨wm₁, buf₁, wm', fb', hmouse, rfl, hcomp⟩ := handleMouse_eq_some h
    refine ⟨wm', fb', rfl, ?_⟩
    obtain ⟨fb₁, cursor, -, -, hcases⟩ := WindowManager.handleMouse_eq_some hmouse
    have hv₁ : wm₁.screenInfo = info ∧ (∀ win ∈ wm₁.windows, win.Valid info) ∧
        info.Holds wm₁.bgCache.size := by
      rcases hcases with ⟨windows, focused, hred, -, rfl⟩ | ⟨-, cursor', -, -, rfl⟩
      · exact ⟨hc.screenInfo_eq, hred _ (WmWindow.chromeStable_valid hf.formatFits) hc.valid,
          hc.holds⟩
      · exact ⟨hc.screenInfo_eq, hc.valid, hc.holds⟩
    rcases hcomp with ⟨-, hcomp⟩ | ⟨hneeds, rfl, rfl⟩
    · exact coherent_of_composite hf hv₁.1 hv₁.2.1 hv₁.2.2 hcomp
    · exact ⟨hv₁.1, hv₁.2.1, hv₁.2.2, fun _ => Clean.handleMouse hf hc.clean hmouse hneeds⟩
  | composite =>
    obtain ⟨wm', fb', hcomp, rfl⟩ := composite_eq_some h
    exact ⟨wm', fb', rfl, coherent_of_composite hf hc.screenInfo_eq hc.valid hc.holds hcomp⟩

/-! ### A console whose text cursor is shown -/

/-- `init_console` on the only window. -/
theorem exists_initConsole_single (winId : UInt64) (hf : info.FormatFits)
    (hwin : wm.windows = [win]) (hid : win.id = winId.toNat) (hfits : win.bufInfo.Fits)
    (ofb : Option FrameBufferState) :
    ∃ win', (Statics.mk (some wm) ofb).perform (.initConsole winId) =
        some ⟨some { wm with windows := [win'] }, ofb⟩ ∧
      Cleared info win win' ∧ ∃ console, win'.console = some console ∧
        console.content = win.contentRect ∧ console.col = 0 ∧ console.row = 0 ∧
        console.cursorVisible = false := by
  obtain ⟨buf, hfill⟩ := exists_fillRect hfits win.contentRect.x win.contentRect.y
    win.contentRect.width win.contentRect.height .black win.buf
  have hnew : Console.new win.buf win.bufInfo win.contentRect =
      some (⟨win.contentRect, 0, 0, win.contentRect.width / FONT_WIDTH,
        win.contentRect.height / FONT_HEIGHT, false⟩, buf) := by rw [Console.new, hfill]; rfl
  refine ⟨_, updateWm_of_eq ?_, cleared_of_new hf hnew, _, rfl, rfl, rfl, rfl, rfl⟩
  simp only [WindowManager.initConsole, hwin, modifyWindow, hid, hnew, if_true, Option.bind_eq_bind,
    Option.bind_some]

/-- `console_show_cursor` on the only window draws a white bar. -/
theorem exists_consoleShowCursor_single (wm : WindowManager) (winId : UInt64)
    (hwin : wm.windows = [win]) (hid : win.id = winId.toNat) (hfits : win.bufInfo.Fits)
    {console : Console} (hconsole : win.console = some console) (hvisible : console.cursorVisible = false)
    (ofb : Option FrameBufferState) :
    ∃ win', (Statics.mk (some wm) ofb).perform (.consoleShowCursor winId) =
        some ⟨some { wm with windows := [win'], needsComposite := true }, ofb⟩ ∧
      win.SameFrame win' ∧ win'.buf.size = win.buf.size ∧
      ∀ p, win.bufInfo.Live win.buf.size (p.1 - win.x, p.2 - win.y) →
        console.CursorOn (p.1 - win.x, p.2 - win.y) → win'.colorAt p = .white := by
  obtain ⟨buf, hdraw, hsize, hcolor⟩ := FrameBufferInfo.exists_color_of_paints hfits.formatFits
    (console.paints_cursor hfits .white) (show win.buf.size = _ from rfl)
  have hcursor : console.drawCursor win.buf win.bufInfo =
      some ({ console with cursorVisible := true }, buf) := by
    rw [Console.drawCursor, if_neg (by simp [hvisible])]
    exact Option.bind_eq_some_iff.2 ⟨buf, hdraw, rfl⟩
  refine ⟨{ win with buf, console := some { console with cursorVisible := true }, dirty := true },
    updateWm_of_eq ?_, ⟨_, _, _, rfl⟩, hsize, fun p hp hon => ?_⟩
  · simp only [hwin, modifyWindow, hid, hconsole, hcursor, if_true, Option.bind_eq_bind,
      Option.bind_some]
  · refine (hcolor _ hp).trans ?_
    rw [Layer.fill_apply, if_pos hon]
    simp

/-- A screen on which the cursor does not cover the left upper corner. -/
def narrow : FrameBufferInfo := ⟨20, 37, .rgb, 3, 20⟩

omit [BasicFonts] in
theorem fits_narrow : narrow.Fits :=
  .of_le (by decide) (Nat.le_refl 3) (by decide) (by decide) (by decide)

omit [BasicFonts] in
theorem of_rect_eq (h : win.rect = ⟨0, 0, 13, 37⟩) :
    win.x = 0 ∧ win.y = 0 ∧ win.contentRect = ⟨6, 30, 1, 1⟩ ∧ win.OffsetsFit narrow := by
  simp only [WmWindow.rect, Rect.mk.injEq] at h
  obtain ⟨hx, hy, hw, hh⟩ := h
  refine ⟨hx, hy, by rw [WmWindow.contentRect, hw, hh]; rfl, fun row hrow => ?_⟩
  simp only [hx, hy, hw, hh, narrow, USIZE_MAX] at hrow ⊢
  omega

/-- The text cursor of the only window is on the screen, at the pixel `(6, 30)`. -/
structure CursorShown (wm : WindowManager) (fb : Buf) (win : WmWindow) : Prop where
  windows_eq : wm.windows = [win]
  id_eq : win.id = (0 : UInt64).toNat
  rect_eq : win.rect = ⟨0, 0, 13, 37⟩
  valid : win.Valid narrow
  colorAt_eq : win.colorAt (6, 30) = .white
  spriteLayer_eq : wm.cursor.spriteLayer (6, 30) = none
  holds : narrow.Holds wm.bgCache.size
  clean : ∃ backBuf, Clean narrow wm fb backBuf
  needsComposite_eq : wm.needsComposite = false

/-- A console of one pixel is made, its text cursor is shown and the screen is composited.  The
console is initialised while a composite is pending. -/
theorem exists_cursorShown {fb₀ : Buf} (hfb₀ : fb₀.size = 2220) :
    ∃ wm₀ wm₁ wm₂ wm₃ wm fb win,
      (Statics.mk none (some ⟨fb₀, narrow⟩)).init = some ⟨some wm₀, some ⟨fb₀, narrow⟩⟩ ∧
      (Statics.mk (some wm₀) (some ⟨fb₀, narrow⟩)).perform (.createWindow 0 0 13 37 "" 0) =
        some ⟨some wm₁, some ⟨fb₀, narrow⟩⟩ ∧
      wm₁.needsComposite = true ∧
      (Statics.mk (some wm₁) (some ⟨fb₀, narrow⟩)).perform (.initConsole 0) =
        some ⟨some wm₂, some ⟨fb₀, narrow⟩⟩ ∧
      (Statics.mk (some wm₂) (some ⟨fb₀, narrow⟩)).perform (.consoleShowCursor 0) =
        some ⟨some wm₃, some ⟨fb₀, narrow⟩⟩ ∧
      (Statics.mk (some wm₃) (some ⟨fb₀, narrow⟩)).perform .composite =
        some ⟨some wm, some ⟨fb, narrow⟩⟩ ∧
      CursorShown wm fb win := by
  have hf := fits_narrow
  obtain ⟨wm₀, hnew⟩ := exists_new hf (by decide) (by decide)
  obtain ⟨hwindows, hid, hinfo, -, hcursor, hback, hcache⟩ := new_eq_some hnew
  have hholds : narrow.Holds wm₀.bgCache.size := by
    rw [hcache]
    exact FrameBufferInfo.holds_of_stride_eq rfl
  -- a window with a console of one pixel
  obtain ⟨wm₁, id, hcreate⟩ := exists_createWindow wm₀ (0 : UInt64).toNat
    (0 : UInt64).toNat (13 : UInt64).toNat (37 : UInt64).toNat "" (0 : UInt64).toNat
    (hinfo ▸ hf.formatFits) (by decide) (by decide) (by rw [hinfo]; decide)
  obtain ⟨win₁, hid₁, hrect₁, hv₁, hwm₁⟩ := createWindow_eq_some (hinfo ▸ hf.formatFits)
    (by decide) (by decide) hcreate
  rw [hinfo] at hv₁
  have hwindows₁ : wm₁.windows = [win₁] := by rw [hwm₁, hwindows]; rfl
  obtain ⟨win₂, hinit₂, hclear₂, console, hconsole, hcontent, hcol, hrow, hvisible⟩ :=
    exists_initConsole_single 0 hf.formatFits hwindows₁ (hid₁.trans hid)
      (hv₁.fits hf.formatFits) (some ⟨fb₀, narrow⟩)
  have hid₂ := hclear₂.sameFrame.id_eq.trans (hid₁.trans hid)
  have hv₂ := hv₁.sameFrame hclear₂.sameFrame hclear₂.size_eq
  -- its cursor is drawn and the screen composited
  obtain ⟨win₃, hshow₃, hsame₃, hsize₃, hwhite⟩ := exists_consoleShowCursor_single
    { wm₁ with windows := [win₂] } 0 rfl hid₂ (hv₂.fits hf.formatFits) hconsole hvisible
    (some ⟨fb₀, narrow⟩)
  have hv₃ := hv₂.sameFrame hsame₃ hsize₃
  have hrect₂ := hclear₂.sameFrame.rect_eq.trans hrect₁
  have hrect₃ := hsame₃.rect_eq.trans hrect₂
  obtain ⟨-, -, hcontent₁, -⟩ := of_rect_eq hrect₁
  obtain ⟨hx₂, hy₂, -⟩ := of_rect_eq hrect₂
  obtain ⟨-, -, -, hfit₃⟩ := of_rect_eq hrect₃
  have hwhite₃ : win₃.colorAt (6, 30) = .white := by
    refine hwhite (6, 30) (hv₂.live (by rw [hrect₂]; decide)) ?_
    rw [Console.CursorOn, hcontent, hcontent₁, hcol, hrow, hx₂, hy₂]
    decide
  obtain ⟨savedBg, fb, hcomp, hfb⟩ := exists_composite_of_valid
    { wm₁ with windows := [win₃], needsComposite := true } fb₀ hf
    (by rw [hwm₁]; exact hback.trans hcache.symm)
    (by rw [hwm₁]; exact hholds) (List.forall_mem_singleton.2 hv₃)
    (List.forall_mem_singleton.2 hfit₃) (by rw [hwm₁]; exact hcursor ▸ ⟨by decide, by decide⟩)
    (by rw [hwm₁]; exact hfb₀.trans hcache.symm)
  obtain ⟨backBuf, hclean, -⟩ := clean_of_composite hf hcomp
  have hsprite : CursorState.cellLayer (asUsize wm₁.cursor.x) (asUsize wm₁.cursor.y) spriteColor
      (6, 30) = none := by
    rw [show wm₁.cursor = CursorState.new 20 37 by rw [hwm₁]; exact hcursor]
    decide
  refine ⟨wm₀, wm₁, _, _, _, fb, { win₃ with dirty := false }, init_of_eq _ hnew,
    perform_createWindow_of_eq hcreate, by rw [hwm₁], hinit₂, hshow₃,
    perform_composite_of_eq ⟨fb₀, narrow⟩ hcomp, ?_⟩
  exact {
    windows_eq := rfl
    id_eq := hsame₃.id_eq.trans hid₂
    rect_eq := hrect₃
    valid := hv₃.sameFrame ⟨_, _, _, rfl⟩ rfl
    colorAt_eq := hwhite₃
    spriteLayer_eq := hsprite
    holds := by rw [hwm₁]; exact hholds
    clean := ⟨backBuf, hclean⟩
    needsComposite_eq := rfl }

/-! ### No stale screen -/

/-- **No stale screen**: in a run without a harmful `init_console`, the screen shows what a fresh
composite would show whenever no composite is pending. -/
theorem shown_of_run (hf : info.Fits) (hstride : info.stride = info.width) {ops : List Op}
    (hinit : (Statics.mk none (some ⟨fb, info⟩)).init = some st₀)
    (hrun : Trace (fun st op st' => st.Harmless op ∧ st.perform op = some st') st₀ ops st) :
    ∃ wm fb', st = ⟨some wm, some ⟨fb', info⟩⟩ ∧
      (wm.needsComposite = false → Shown info wm fb') := by
  have hst₀ : ∃ wm fb', st₀ = ⟨some wm, some ⟨fb', info⟩⟩ ∧ Coherent info wm fb' := by
    obtain ⟨wm, hnew, rfl⟩ := init_eq_some hinit
    exact ⟨wm, fb, rfl, coherent_of_new hstride hnew fb⟩
  obtain ⟨wm, fb', rfl, hc⟩ := hrun.invariant
    (I := fun st => ∃ wm fb', st = ⟨some wm, some ⟨fb', info⟩⟩ ∧ Coherent info wm fb')
    (fun st op st' hst hstep => by
      obtain ⟨wm, fb', rfl, hc⟩ := hst
      exact coherent_step hf hc hstep.1 hstep.2) hst₀
  refine ⟨wm, fb', rfl, fun hneeds => ?_⟩
  obtain ⟨backBuf, hclean⟩ := hc.clean hneeds
  exact hclean.shown hf

omit [BasicFonts] in
/-- A window is created, its console initialised while the composite of the window is pending, its
text cursor shown, and the screen composited: it shows the cursor. -/
theorem shown_of_run_cursor :
    let _ := BasicFonts.sample
    ∃ st₀ wm fb win, (Statics.mk none (some ⟨Array.replicate 2220 0, narrow⟩)).init = some st₀ ∧
      Trace (fun (st : Statics) op st' => st.Harmless op ∧ st.perform op = some st') st₀
        [.createWindow 0 0 13 37 "" 0, .initConsole 0, .consoleShowCursor 0, .composite]
        ⟨some wm, some ⟨fb, narrow⟩⟩ ∧
      CursorShown wm fb win ∧ Shown narrow wm fb := by
  intro _
  have hsize : (Array.replicate 2220 (0 : UInt8)).size = 2220 := Array.size_replicate
  obtain ⟨wm₀, wm₁, wm₂, wm₃, wm, fb, win, hinit, hcreate, hneeds, hconsole, hshow, hcomp,
    hcursor⟩ := exists_cursorShown hsize
  have hharmless : (Statics.mk (some wm₁) (some ⟨Array.replicate 2220 0, narrow⟩)).Harmless
      (.initConsole 0) := by
    intro wm fb hwm _
    cases hwm
    exact .inl hneeds
  have hrun : Trace (fun (st : Statics) op st' => st.Harmless op ∧ st.perform op = some st')
      ⟨some wm₀, some ⟨Array.replicate 2220 0, narrow⟩⟩
      [.createWindow 0 0 13 37 "" 0, .initConsole 0, .consoleShowCursor 0, .composite]
      ⟨some wm, some ⟨fb, narrow⟩⟩ :=
    .cons ⟨trivial, hcreate⟩ (.cons ⟨hharmless, hconsole⟩ (.cons ⟨trivial, hshow⟩
      (.single ⟨trivial, hcomp⟩)))
  obtain ⟨wm', fb', heq, hshown⟩ := shown_of_run fits_narrow rfl hinit hrun
  cases heq
  exact ⟨_, wm, fb, win, hinit, hrun, hcursor, hshown hcursor.needsComposite_eq⟩

/-! ### A stale screen -/

theorem foldlM_cons_of_eq {st st' : Statics} {op : Op} (h : st.perform op = some st')
    (ops : List Op) : (op :: ops).foldlM perform st = ops.foldlM perform st' := by
  rw [List.foldlM_cons, h]
  rfl

/-- Clearing a visible pixel of the only window leaves a stale screen. -/
theorem exists_stale_of_initConsole_single (win : WmWindow) (p : ℕ × ℕ) (winId : UInt64)
    (hf : info.Fits) (hn : info.Holds wm.bgCache.size)
    {backBuf : Buf} (hclean : Clean info wm fb backBuf) (hwin : wm.windows = [win])
    (hv : win.Valid info) (hp : info.OnScreen p)
    (hsprite : wm.cursor.spriteLayer p = none) (hin : win.rect.Contains p)
    (hcontent : win.contentRect.Contains (p.1 - win.x, p.2 - win.y))
    (hcolor : win.colorAt p ≠ .black) (hid : win.id = winId.toNat)
    (ofb : Option FrameBufferState) :
    ∃ wm', (Statics.mk (some wm) ofb).perform (.initConsole winId) = some ⟨some wm', ofb⟩ ∧
      wm'.needsComposite = wm.needsComposite ∧ ¬ Shown info wm' fb := by
  obtain ⟨win', hinit, hclear, -⟩ :=
    exists_initConsole_single winId hf.formatFits hwin hid (hv.fits hf.formatFits) ofb
  refine ⟨_, hinit, rfl, ?_⟩
  have hvs : ∀ w ∈ wm.windows, w.Valid info := by
    rw [hwin]
    exact List.forall_mem_singleton.2 hv
  refine not_shown_of_change (R := fun w w' => w = win ∧ Cleared info w w') hf hn hclean hvs
    (List.forall_mem_singleton.2 (hv.sameFrame hclear.sameFrame hclear.size_eq))
    (fun w w' h => h.2.sameFrame) (by rw [hwin]; exact .cons ⟨rfl, hclear⟩ .nil) hp hsprite
    (show topmost wm.windows p = some win from ?_) fun w' h => ?_
  · rw [hwin]
    simpa [topmost] using hin
  · rw [h.2.colorAt_eq hv p hin, if_pos hcontent]
    exact hcolor.symm

/-- The text cursor of a console is shown, and then the console is initialised a second time: its
content is black, but the screen still shows the cursor. -/
theorem exists_stale_run {fb₀ : Buf} (hfb₀ : fb₀.size = 2220) :
    ∃ st₀ wm fb, (Statics.mk none (some ⟨fb₀, narrow⟩)).init = some st₀ ∧
      [Op.createWindow 0 0 13 37 "" 0, .initConsole 0, .consoleShowCursor 0, .composite,
        .initConsole 0].foldlM perform st₀ = some ⟨some wm, some ⟨fb, narrow⟩⟩ ∧
      wm.needsComposite = false ∧ ¬ Shown narrow wm fb := by
  obtain ⟨wm₀, wm₁, wm₂, wm₃, wm₄, fb, win, hinit, hcreate, -, hconsole, hshow, hcomp, hcursor⟩ :=
    exists_cursorShown hfb₀
  obtain ⟨backBuf, hclean⟩ := hcursor.clean
  obtain ⟨hx, hy, hcontent, -⟩ := of_rect_eq hcursor.rect_eq
  -- the console is cleared again
  obtain ⟨wm, hagain, hneeds, hstale⟩ := exists_stale_of_initConsole_single win (6, 30) 0
    fits_narrow hcursor.holds hclean hcursor.windows_eq hcursor.valid (by decide)
    hcursor.spriteLayer_eq (by rw [hcursor.rect_eq]; decide) (by rw [hcontent, hx, hy]; decide)
    (by rw [hcursor.colorAt_eq]; decide) hcursor.id_eq (some ⟨fb, narrow⟩)
  refine ⟨_, wm, fb, hinit, ?_, hneeds.trans hcursor.needsComposite_eq, hstale⟩
  refine (foldlM_cons_of_eq hcreate _).trans ?_
  refine (foldlM_cons_of_eq hconsole _).trans ?_
  refine (foldlM_cons_of_eq hshow _).trans ?_
  refine (foldlM_cons_of_eq hcomp _).trans ?_
  exact foldlM_cons_of_eq hagain []

omit [BasicFonts] in
theorem initConsole_stale :
    let _ := BasicFonts.sample
    ∃ st₀ wm fb, (Statics.mk none (some ⟨Array.replicate 2220 0, narrow⟩)).init = some st₀ ∧
      [Op.createWindow 0 0 13 37 "" 0, .initConsole 0, .consoleShowCursor 0, .composite,
        .initConsole 0].foldlM perform st₀ = some ⟨some wm, some ⟨fb, narrow⟩⟩ ∧
      wm.needsComposite = false ∧ ¬ Shown narrow wm fb :=
  let _ := BasicFonts.sample
  exists_stale_run Array.size_replicate

end Statics

end ROs
