import ROs.Wm.Chrome
import ROs.Wm.Stale
import ROs.Wm.Text

/-!
# Consoles that share a screen

Several tasks write on consoles of their own, while windows are created, raised, redrawn and
composited.  A call changes the text of the window it names and of no other: every other window
keeps its console and the pixels of its content, wherever it is moved (`WindowManager.KeepsText`,
`Statics.Tracked.step`).

`WindowManager.Hosts` says that a window shows a character grid on its content.  What leaves the text
of the window alone leaves the grid alone (`Hosts.keep`); a run of calls does to the grid what those
for the console of the window do (`Statics.Hosts.run`).
-/

namespace ROs

variable [BasicFonts] {info : FrameBufferInfo} {win win' : WmWindow}
  {windows windows' : List WmWindow}

namespace Session

omit [BasicFonts] in
/-- The invariant of a session is about the frames, the focus and the next id. -/
theorem Inv.congr {s s' : Session} (h : Inv info s) (hcreated : s'.created = s.created)
    (hframes : s'.wm.windows.map WmWindow.frame = s.wm.windows.map WmWindow.frame)
    (hscreen : s'.wm.screenInfo = s.wm.screenInfo) (hnext : s'.wm.nextId = s.wm.nextId)
    (hfocused : s'.wm.focused = s.wm.focused) : Inv info s' := by
  have hids : s'.wm.windows.map WmWindow.id = s.wm.windows.map WmWindow.id := by
    have := congrArg (List.map WmWindow.id) hframes
    rw [List.map_map, List.map_map] at this
    exact this
  refine ⟨hscreen.trans h.screen_eq, ?_, hids ▸ h.nodup, fun win hwin => ?_, ?_, fun id hid => ?_⟩
  · rw [hframes, hcreated]
    exact h.perm
  · obtain ⟨w, hw, heq⟩ := List.mem_map.1 (hids ▸ List.mem_map_of_mem (f := WmWindow.id) hwin)
    rw [hnext, ← heq]
    exact h.fresh w hw
  · rw [hfocused, h.focused_eq_none, ← List.map_eq_nil_iff (f := WmWindow.id), ← hids,
      List.map_eq_nil_iff]
  · rw [hfocused] at hid
    obtain ⟨w, hw, rfl⟩ := h.focused_mem id hid
    obtain ⟨w', hw', heq⟩ := List.mem_map.1 (hids.symm ▸ List.mem_map_of_mem (f := WmWindow.id) hw)
    exact ⟨w', hw', heq⟩

end Session

/-! ### The text of the other windows -/

namespace WmWindow

omit [BasicFonts] in
theorem valid_of_frame_eq (h : win'.frame = win.frame) (hsize : win'.buf.size = win.buf.size)
    (hv : win.Valid info) : win'.Valid info := by
  have hinfo : win'.frame.bufInfo = win.frame.bufInfo := by rw [h]
  have hwidth : win'.frame.width = win.frame.width := by rw [h]
  have hheight : win'.frame.height = win.frame.height := by rw [h]
  change win'.bufInfo = win.bufInfo at hinfo
  change win'.width = win.width at hwidth
  change win'.height = win.height at hheight
  refine ⟨?_, ?_, ?_, ?_, ?_⟩
  · rw [hinfo, hwidth, hheight]
    exact hv.bufInfo_eq
  · rw [hsize, hwidth, hheight]
    exact hv.size_eq
  · rw [hsize]
    exact hv.size_le
  · rw [hwidth]
    exact hv.width_le
  · rw [hheight]
    exact hv.height_le

/-- `win'` is `win` with other chrome: it has the same console, on the same pixels. -/
structure SameText (win win' : WmWindow) : Prop where
  frame_eq : win'.frame = win.frame
  console_eq : win'.console = win.console
  size_eq : win'.buf.size = win.buf.size
  color_eq : ∀ p, win.contentRect.Contains p →
    win.bufInfo.color win'.buf p = win.bufInfo.color win.buf p

omit [BasicFonts] in
theorem SameText.refl (win : WmWindow) : SameText win win := ⟨rfl, rfl, rfl, fun _ _ => rfl⟩

omit [BasicFonts] in
/-- The dirty flag is not part of the text. -/
theorem sameText_dirty (win : WmWindow) (dirty : Bool) : SameText win { win with dirty } :=
  ⟨rfl, rfl, rfl, fun _ _ => rfl⟩

omit [BasicFonts] in
theorem contentRect_eq_of_frame_eq (h : win'.frame = win.frame) :
    win'.contentRect = win.contentRect := by
  have : win'.frame.contentRect = win.frame.contentRect := by rw [h]
  exact this

omit [BasicFonts] in
theorem bufInfo_eq_of_frame_eq (h : win'.frame = win.frame) : win'.bufInfo = win.bufInfo := by
  have : win'.frame.bufInfo = win.frame.bufInfo := by rw [h]
  exact this

omit [BasicFonts] in
theorem SameText.trans {win₁ win₂ win₃ : WmWindow} (h : SameText win₁ win₂)
    (h' : SameText win₂ win₃) : SameText win₁ win₃ := by
  refine ⟨h'.frame_eq.trans h.frame_eq, h'.console_eq.trans h.console_eq,
    h'.size_eq.trans h.size_eq, fun p hp => ?_⟩
  have hcolor := h'.color_eq p (contentRect_eq_of_frame_eq h.frame_eq ▸ hp)
  rw [bufInfo_eq_of_frame_eq h.frame_eq] at hcolor
  exact hcolor.trans (h.color_eq p hp)

/-- Redrawing the chrome leaves the text alone. -/
theorem sameText_of_drawChrome (hf : info.FormatFits) (hv : win.Valid info) {focused : Bool}
    (h : win.drawChrome focused = some win') : SameText win { win' with dirty := true } := by
  obtain ⟨buf, rfl, hsize, hlook⟩ := drawChrome_paints (hv.fits hf) h
  refine ⟨rfl, rfl, hsize, fun p hp => ?_⟩
  have hlive := hv.live_of_onScreen (hv.onScreen_of_content hp)
  rw [FrameBufferInfo.color, hlook p hlive, chromeLayer_content hv focused hp]
  rfl

end WmWindow

namespace WindowManager

/-- Every window but the one with the given id keeps its text, wherever it is moved. -/
def KeepsText (target : Option ℕ) (windows windows' : List WmWindow) : Prop :=
  ∀ win ∈ windows, target ≠ some win.id → ∃ win' ∈ windows', win.SameText win'

omit [BasicFonts] in
theorem KeepsText.refl (target : Option ℕ) (windows : List WmWindow) :
    KeepsText target windows windows := fun win hwin _ => ⟨win, hwin, .refl win⟩

omit [BasicFonts] in
theorem KeepsText.trans {target : Option ℕ} {windows₁ windows₂ windows₃ : List WmWindow}
    (h : KeepsText target windows₁ windows₂) (h' : KeepsText target windows₂ windows₃) :
    KeepsText target windows₁ windows₃ := by
  intro win hwin hne
  obtain ⟨win₂, hwin₂, hsame⟩ := h win hwin hne
  rw [← WmWindow.id_eq_of_frame_eq hsame.frame_eq] at hne
  obtain ⟨win₃, hwin₃, hsame'⟩ := h' win₂ hwin₂ hne
  exact ⟨win₃, hwin₃, hsame.trans hsame'⟩

omit [BasicFonts] in
theorem KeepsText.weaken (h : KeepsText none windows windows') (target : Option ℕ) :
    KeepsText target windows windows' := fun win hwin _ => h win hwin nofun

omit [BasicFonts] in
theorem keepsText_of_forall₂ {target : Option ℕ} {R : WmWindow → WmWindow → Prop}
    (h : List.Forall₂ R windows windows')
    (hR : ∀ win win', win ∈ windows → R win win' → target ≠ some win.id → win.SameText win') :
    KeepsText target windows windows' := by
  induction h with
  | nil => exact nofun
  | @cons win win' windows windows' hwin hrest ih =>
    intro w hw hne
    rcases List.mem_cons.1 hw with rfl | hw
    · exact ⟨win', List.mem_cons_self, hR _ _ List.mem_cons_self hwin hne⟩
    · obtain ⟨w', hw', hsame⟩ := ih (fun a b ha => hR a b (List.mem_cons_of_mem _ ha)) w hw hne
      exact ⟨w', List.mem_cons_of_mem _ hw', hsame⟩

theorem keepsText_of_redraw (hf : info.FormatFits) (hv : ∀ win ∈ windows, win.Valid info)
    {focused : Bool} {id : ℕ} (h : redraw focused id windows = some windows') :
    KeepsText none windows windows' := by
  refine keepsText_of_forall₂ (forall₂_of_modifyWindow h) fun win win' hwin hrel _ => ?_
  rcases hrel with rfl | ⟨-, hdraw⟩
  · exact .refl _
  · obtain ⟨win₁, hchrome, heq⟩ := Option.bind_eq_some_iff.1 hdraw
    cases heq
    exact WmWindow.sameText_of_drawChrome hf (hv win hwin) hchrome

theorem keepsText_of_unfocus (hf : info.FormatFits) (hv : ∀ win ∈ windows, win.Valid info)
    {focused : Option ℕ} (h : unfocus focused windows = some windows') :
    KeepsText none windows windows' := by
  cases focused with
  | none =>
    cases h
    exact .refl _ _
  | some oldId => exact keepsText_of_redraw hf hv h

/-- **A move of the focus leaves the text of every window alone.** -/
theorem keepsText_of_focusEffect (hf : info.FormatFits) {wm wm' : WindowManager}
    (hv : ∀ win ∈ wm.windows, win.Valid info) (h : FocusEffect wm wm') :
    KeepsText none wm.windows wm'.windows := by
  cases h with
  | keep windows _ =>
    rw [windows]
    exact .refl _ _
  | @move win redrawn mem change focused unfocus redraw =>
    have hstable := WmWindow.chromeStable_valid hf
    have hv₁ := redrawn_of_unfocus unfocus _ hstable hv
    have hperm := bringToFront_perm win.id redrawn
    have hfront : KeepsText none redrawn (bringToFront win.id redrawn) := fun w hw _ =>
      ⟨w, hperm.mem_iff.2 hw, .refl w⟩
    have hv₂ : ∀ w ∈ bringToFront win.id redrawn, w.Valid info := fun w hw =>
      hv₁ w (hperm.mem_iff.1 hw)
    exact (keepsText_of_unfocus hf hv unfocus).trans
      (hfront.trans (keepsText_of_redraw hf hv₂ redraw))

end WindowManager

/-! ### What each call does to the windows -/

/-- `win'` is `win` with other pixels and another console, unless it is not the target. -/
structure WmWindow.Rewritten (target : Option ℕ) (win win' : WmWindow) : Prop where
  frame_eq : win'.frame = win.frame
  size_eq : win'.buf.size = win.buf.size
  sameText : target ≠ some win.id → win.SameText win'

omit [BasicFonts] in
theorem WmWindow.SameText.rewritten (h : win.SameText win') (target : Option ℕ) :
    Rewritten target win win' := ⟨h.frame_eq, h.size_eq, fun _ => h⟩

namespace WindowManager

variable {wm wm' : WindowManager} {fb fb' : Buf} {target : Option ℕ}

/-- What the calls other than those of the mouse and `create_window` leave as it is: everything but
the pixels and the consoles. -/
structure SameDesktop (wm wm' : WindowManager) : Prop where
  frames : wm'.windows.map WmWindow.frame = wm.windows.map WmWindow.frame
  focused : wm'.focused = wm.focused
  nextId : wm'.nextId = wm.nextId
  screenInfo : wm'.screenInfo = wm.screenInfo
  x : wm'.cursor.x = wm.cursor.x
  y : wm'.cursor.y = wm.cursor.y
  screenWidth : wm'.cursor.screenWidth = wm.cursor.screenWidth
  screenHeight : wm'.cursor.screenHeight = wm.cursor.screenHeight

omit [BasicFonts] in
theorem SameDesktop.refl (wm : WindowManager) : SameDesktop wm wm :=
  ⟨rfl, rfl, rfl, rfl, rfl, rfl, rfl, rfl⟩

omit [BasicFonts] in
theorem SameDesktop.trans {wm₁ wm₂ wm₃ : WindowManager} (h : SameDesktop wm₁ wm₂)
    (h' : SameDesktop wm₂ wm₃) : SameDesktop wm₁ wm₃ :=
  ⟨h'.frames.trans h.frames, h'.focused.trans h.focused, h'.nextId.trans h.nextId,
    h'.screenInfo.trans h.screenInfo, h'.x.trans h.x, h'.y.trans h.y,
    h'.screenWidth.trans h.screenWidth, h'.screenHeight.trans h.screenHeight⟩

omit [BasicFonts] in
theorem map_frame_of_rewritten (h : List.Forall₂ (WmWindow.Rewritten target) windows windows') :
    windows'.map WmWindow.frame = windows.map WmWindow.frame :=
  map_eq_of_forall₂ h fun _ _ hwin => hwin.frame_eq

omit [BasicFonts] in
theorem keepsText_of_rewritten (h : List.Forall₂ (WmWindow.Rewritten target) windows windows') :
    KeepsText target windows windows' :=
  keepsText_of_forall₂ h fun _ _ _ hwin hne => hwin.sameText hne

omit [BasicFonts] in
theorem valid_of_rewritten (h : List.Forall₂ (WmWindow.Rewritten target) windows windows')
    (hv : ∀ win ∈ windows, win.Valid info) : ∀ win ∈ windows', win.Valid info :=
  forall_of_forall₂ h (fun _ _ hv hwin => WmWindow.valid_of_frame_eq hwin.frame_eq hwin.size_eq hv) hv

omit [BasicFonts] in
/-- Windows that are rewritten in their places. -/
theorem sameDesktop_of_rewritten (wm : WindowManager) (needsComposite : Bool)
    (h : List.Forall₂ (WmWindow.Rewritten target) wm.windows windows) :
    SameDesktop wm { wm with windows, needsComposite } :=
  ⟨map_frame_of_rewritten h, rfl, rfl, rfl, rfl, rfl, rfl, rfl⟩

omit [BasicFonts] in
/-- A change of the window with the given id rewrites it. -/
theorem rewritten_of_modifyWindow {F : WmWindow → Option WmWindow} {id : ℕ}
    (hF : ∀ win win', F win = some win' → win'.frame = win.frame ∧ win'.buf.size = win.buf.size)
    (h : modifyWindow F id windows = some windows') :
    List.Forall₂ (WmWindow.Rewritten (some id)) windows windows' := by
  refine (forall₂_of_modifyWindow h).imp fun win win' hwin => ?_
  rcases hwin with rfl | ⟨hid, hwin⟩
  · exact (WmWindow.SameText.refl _).rewritten _
  · obtain ⟨hframe, hsize⟩ := hF win win' hwin
    exact ⟨hframe, hsize, fun hne => absurd (congrArg some hid.symm) hne⟩

omit [BasicFonts] in
/-- **A function of the console** rewrites the window it names. -/
theorem updateConsole_eq_some {fbs : Option FrameBufferState} {winId : ℕ} {st : Statics}
    {f : Console → Buf → FrameBufferInfo → Option (Console × Buf)} (hf : Console.KeepsSize f)
    (h : (Statics.mk (some wm) fbs).updateConsole winId f = some st) :
    ∃ windows, st = ⟨some { wm with windows, needsComposite := true }, fbs⟩ ∧
      List.Forall₂ (WmWindow.Rewritten (some winId)) wm.windows windows := by
  obtain ⟨F, hF, heq⟩ := Statics.exists_updateConsole_eq ⟨some wm, fbs⟩ winId f
  rw [heq] at h
  obtain ⟨wm', hupdate, rfl⟩ := Statics.updateWm_eq_some h
  obtain ⟨windows, hmodify, hupdate⟩ := Option.bind_eq_some_iff.1 hupdate
  cases hupdate
  refine ⟨windows, rfl, rewritten_of_modifyWindow (fun win win' hwin => ?_) hmodify⟩
  rcases (hF win win').1 hwin with ⟨-, rfl⟩ | ⟨console, console', buf, -, hcall, rfl⟩
  · exact ⟨rfl, rfl⟩
  · exact ⟨rfl, hf _ _ _ _ _ hcall⟩

omit [BasicFonts] in
/-- **`mark_dirty`** changes no text. -/
theorem markDirty_eq_some {id : ℕ} (h : wm.markDirty id = some wm') :
    ∃ windows, wm' = { wm with windows, needsComposite := true } ∧
      List.Forall₂ (WmWindow.Rewritten none) wm.windows windows := by
  obtain ⟨windows, hmodify, h⟩ := Option.bind_eq_some_iff.1 h
  cases h
  refine ⟨windows, rfl, (forall₂_of_modifyWindow hmodify).imp fun win win' hwin => ?_⟩
  rcases hwin with rfl | ⟨-, hwin⟩
  · exact (WmWindow.SameText.refl _).rewritten _
  · cases hwin
    exact (WmWindow.sameText_dirty win true).rewritten _

omit [BasicFonts] in
/-- **`init_console`** rewrites the window it names. -/
theorem initConsole_rewritten (hf : info.FormatFits) {id : ℕ} (h : wm.initConsole id = some wm') :
    ∃ windows, wm' = { wm with windows } ∧
      List.Forall₂ (WmWindow.Rewritten (some id)) wm.windows windows := by
  obtain ⟨windows, rfl, hrel⟩ := initConsole_eq_some hf h
  refine ⟨windows, rfl, hrel.imp fun win win' hwin => ?_⟩
  rcases hwin with rfl | ⟨hid, hclear⟩
  · exact (WmWindow.SameText.refl _).rewritten _
  · obtain ⟨buf, console, dirty, rfl⟩ := hclear.sameFrame
    exact ⟨rfl, hclear.size_eq, fun hne => absurd (congrArg some hid.symm) hne⟩

omit [BasicFonts] in
/-- **`composite`** changes no text. -/
theorem rewritten_composited (wm : WindowManager)
    (savedBg : Vector Color (CURSOR_W * CURSOR_H)) (backBuf : Buf) :
    List.Forall₂ (WmWindow.Rewritten none) wm.windows (wm.composited savedBg backBuf).windows :=
  List.forall₂_map_right_iff.2 (List.forall₂_same.2 fun win _ =>
    (WmWindow.sameText_dirty win false).rewritten _)

/-- What a mouse event does to the focus. -/
theorem focusEffect_of_handleMouse {event : MouseEvent}
    (h : wm.handleMouse event fb info = some (wm', fb')) : FocusEffect wm wm' := by
  obtain ⟨cursor, -, -, -, -, -, hcases⟩ := handleMouse_dispatch h
  rcases hcases with ⟨-, hwindows, hfocused⟩ | ⟨-, target, wm₁, htarget, hdispatch, hw, hf⟩
  · exact .keep hwindows hfocused
  · have htarget' : ({ wm with cursor } : WindowManager).clickTarget _ = some target := htarget
    exact (focusEffect_of_dispatch htarget' hdispatch).congr rfl rfl hw hf

end WindowManager

namespace Statics

open WindowManager

variable {wm : WindowManager} {fb : Buf} {created : List WmWindow} {st : Statics} {op : Op}

/-- The window whose text a call may change. -/
def Op.target : Op → Option ℕ
  | .consoleWrite id _ | .consoleShowCursor id | .consoleHideCursor id | .consoleClear id
  | .initConsole id => some id.toNat
  | .createWindow .. | .markDirty _ | .handleMouse _ | .composite => none

/-- The windows are the created ones, with distinct ids, and have the format of the screen. -/
structure Tracked (info : FrameBufferInfo) (created : List WmWindow) (wm : WindowManager) : Prop where
  session : Session.Inv info ⟨wm, created⟩
  valid : ∀ win ∈ wm.windows, win.Valid info

omit [BasicFonts] in
/-- Windows that are rewritten in their places are tracked as before. -/
theorem Tracked.rewrite (h : Tracked info created wm) {target : Option ℕ} {wm' : WindowManager}
    (hrel : List.Forall₂ (WmWindow.Rewritten target) wm.windows wm'.windows)
    (hd : SameDesktop wm wm') : Tracked info created wm' :=
  ⟨h.session.congr rfl hd.frames hd.screenInfo hd.nextId hd.focused,
    valid_of_rewritten hrel h.valid⟩

/-- A mouse event of the window manager. -/
theorem Tracked.mouse (hf : info.Fits) (h : Tracked info created wm) {event : MouseEvent}
    {wm' : WindowManager} {fb' : Buf} (hmouse : wm.handleMouse event fb info = some (wm', fb')) :
    Tracked info created wm' ∧ KeepsText none wm.windows wm'.windows := by
  refine ⟨⟨h.session.step (.handleMouse hmouse), ?_⟩,
    keepsText_of_focusEffect hf.formatFits h.valid (focusEffect_of_handleMouse hmouse)⟩
  obtain ⟨fb₁, cursor, -, -, hcases⟩ := WindowManager.handleMouse_eq_some hmouse
  rcases hcases with ⟨windows, focused, hred, -, rfl⟩ | ⟨-, cursor', -, -, rfl⟩
  · exact hred _ (WmWindow.chromeStable_valid hf.formatFits) h.valid
  · exact h.valid

/-- A composite of the window manager. -/
theorem Tracked.composite (hf : info.Fits) (h : Tracked info created wm) {wm' : WindowManager}
    {fb' : Buf} (hcomp : wm.composite fb info = some (wm', fb')) :
    Tracked info created wm' ∧ KeepsText none wm.windows wm'.windows := by
  obtain ⟨savedBg, rfl⟩ := composited_of_composite hf hcomp
  have hrel := rewritten_composited wm savedBg fb'
  exact ⟨h.rewrite hrel ⟨map_frame_of_rewritten hrel, rfl, rfl, rfl, rfl, rfl, rfl, rfl⟩,
    keepsText_of_rewritten hrel⟩

/-- **One call** changes the text of its target only. -/
theorem Tracked.step (hf : info.Fits) (h : Tracked info created wm)
    (hst : (Statics.mk (some wm) (some ⟨fb, info⟩)).perform op = some st) :
    ∃ created' wm' fb', st = ⟨some wm', some ⟨fb', info⟩⟩ ∧ Tracked info created' wm' ∧
      KeepsText op.target wm.windows wm'.windows := by
  have hconsole : ∀ {winId : ℕ} {f : Console → Buf → FrameBufferInfo → Option (Console × Buf)},
      Console.KeepsSize f →
      (Statics.mk (some wm) (some ⟨fb, info⟩)).updateConsole winId f = some st →
      ∃ created' wm' fb', st = ⟨some wm', some ⟨fb', info⟩⟩ ∧ Tracked info created' wm' ∧
        KeepsText (some winId) wm.windows wm'.windows := by
    intro winId f hsize hcall
    obtain ⟨windows, rfl, hrel⟩ := updateConsole_eq_some hsize hcall
    exact ⟨created, _, fb, rfl, h.rewrite hrel (sameDesktop_of_rewritten wm true hrel),
      keepsText_of_rewritten hrel⟩
  cases op with
  | createWindow x y width height title ownerTask =>
    obtain ⟨wm', id, hcreate, rfl⟩ := perform_createWindow_eq_some hst
    have hscreen := h.session.screen_eq
    refine ⟨_, wm', fb, rfl, ⟨h.session.step (.createWindow hcreate), ?_⟩, ?_⟩
    all_goals
      obtain ⟨win, -, -, hvalid, rfl⟩ := createWindow_eq_some
        (show wm.screenInfo.FormatFits from hscreen ▸ hf.formatFits)
        (Nat.le_of_lt_succ width.toNat_lt) (Nat.le_of_lt_succ height.toNat_lt) hcreate
    · intro w hw
      rcases List.mem_append.1 hw with hw | hw
      · exact h.valid w hw
      · rw [List.mem_singleton.1 hw]
        exact hscreen ▸ hvalid
    · exact fun w hw _ => ⟨w, List.mem_append_left _ hw, .refl w⟩
  | initConsole winId =>
    obtain ⟨wm', hinit, rfl⟩ := updateWm_eq_some hst
    obtain ⟨windows, rfl, hrel⟩ := initConsole_rewritten hf.formatFits hinit
    exact ⟨created, _, fb, rfl, h.rewrite hrel (sameDesktop_of_rewritten wm wm.needsComposite hrel),
      keepsText_of_rewritten hrel⟩
  | consoleWrite winId s => exact hconsole (Console.keepsSize_writeStr _) hst
  | consoleShowCursor winId => exact hconsole Console.keepsSize_drawCursor hst
  | consoleHideCursor winId => exact hconsole Console.keepsSize_eraseCursor hst
  | consoleClear winId => exact hconsole Console.keepsSize_clear hst
  | markDirty winId =>
    obtain ⟨wm', hmark, rfl⟩ := updateWm_eq_some hst
    obtain ⟨windows, rfl, hrel⟩ := markDirty_eq_some hmark
    exact ⟨created, _, fb, rfl, h.rewrite hrel (sameDesktop_of_rewritten wm true hrel),
      keepsText_of_rewritten hrel⟩
  | handleMouse event =>
    obtain ⟨wm₁, fb₁, wm', fb', hmouse, rfl, hcomp⟩ := handleMouse_eq_some hst
    obtain ⟨h₁, hkeep₁⟩ := h.mouse hf hmouse
    rcases hcomp with ⟨-, hcomp⟩ | ⟨-, rfl, rfl⟩
    · obtain ⟨h', hkeep'⟩ := h₁.composite hf hcomp
      exact ⟨created, wm', fb', rfl, h', hkeep₁.trans hkeep'⟩
    · exact ⟨created, _, _, rfl, h₁, hkeep₁⟩
  | composite =>
    obtain ⟨wm', fb', hcomp, rfl⟩ := composite_eq_some hst
    obtain ⟨h', hkeep⟩ := h.composite hf hcomp
    exact ⟨created, wm', fb', rfl, h', hkeep⟩

end Statics

/-! ### Grids -/

/-- The points of the cursor of a grid: the left edge of the cell at the position. -/
def Grid.CursorOn {rows cols : ℕ} (g : Grid rows cols) (content : Rect) (p : ℕ × ℕ) : Prop :=
  p.1 = content.x + g.col * FONT_WIDTH ∧ content.y + g.row * FONT_HEIGHT ≤ p.2 ∧
    p.2 < content.y + g.row * FONT_HEIGHT + FONT_HEIGHT

instance {rows cols : ℕ} (g : Grid rows cols) (content : Rect) :
    DecidablePred (g.CursorOn content) := fun _ => inferInstanceAs (Decidable (_ ∧ _))

namespace WindowManager

variable {wm wm' : WindowManager} {fb fb' : Buf} {created : List WmWindow} {winId : ℕ}
  {content : Rect} {shown shown' : Bool}
  {g g' : Grid (content.height / FONT_HEIGHT) (content.width / FONT_WIDTH)}

/-- The window shows the grid on its content, with its cursor drawn or not. -/
def Hosts (wm : WindowManager) (winId : ℕ) (content : Rect) (shown : Bool)
    (g : Grid (content.height / FONT_HEIGHT) (content.width / FONT_WIDTH)) : Prop :=
  ∃ win ∈ wm.windows, win.id = winId ∧ win.contentRect = content ∧ ∃ console,
    win.console = some console ∧ console.cursorVisible = shown ∧
      Console.Shows win.bufInfo win.buf.size content console win.buf g

/-- **What leaves the text of the window alone leaves its grid alone.** -/
theorem Hosts.keep (h : wm.Hosts winId content shown g) {target : Option ℕ}
    (hkeep : KeepsText target wm.windows wm'.windows) (hne : target ≠ some winId) :
    wm'.Hosts winId content shown g := by
  obtain ⟨win, hwin, rfl, rfl, console, hconsole, hvis, hshows⟩ := h
  obtain ⟨win', hwin', hsame⟩ := hkeep win hwin hne
  have hinfo := WmWindow.bufInfo_eq_of_frame_eq hsame.frame_eq
  refine ⟨win', hwin', WmWindow.id_eq_of_frame_eq hsame.frame_eq,
    WmWindow.contentRect_eq_of_frame_eq hsame.frame_eq, console, hsame.console_eq.trans hconsole,
    hvis, ?_⟩
  rw [hinfo, hsame.size_eq]
  exact ⟨hsame.size_eq, hshows.content_eq, hshows.rows_eq, hshows.cols_eq, hshows.row_eq,
    hshows.col_eq, hshows.blankFrom, fun p hp => (hsame.color_eq p hp).trans (hshows.color_eq p hp)⟩

omit [BasicFonts] in
/-- With distinct ids, a window of the list is the one that is found by its id. -/
theorem find?_of_mem {windows : List WmWindow} {win : WmWindow}
    (hnodup : (windows.map WmWindow.id).Nodup) (hwin : win ∈ windows) :
    windows.find? (fun w => w.id = win.id) = some win := by
  induction windows with
  | nil => cases hwin
  | cons first windows ih =>
    rw [List.map_cons, List.nodup_cons] at hnodup
    rcases List.mem_cons.1 hwin with rfl | hmem
    · exact List.find?_cons_of_pos (by simp)
    · have hne : first.id ≠ win.id := fun heq => hnodup.1 (heq ▸ List.mem_map_of_mem hmem)
      rw [List.find?_cons_of_neg (by simpa using hne)]
      exact ih hnodup.2 hmem

/-- What a window hosts is displayed. -/
theorem Hosts.displays (h : wm.Hosts winId content shown g) (hr : Statics.Tracked info created wm)
    (hf : info.FormatFits) (fbs : Option FrameBufferState) :
    ∃ bufInfo n, (Statics.mk (some wm) fbs).Displays winId bufInfo n content shown g := by
  obtain ⟨win, hwin, rfl, rfl, console, hconsole, hvis, hshows⟩ := h
  have hplaced := (hr.valid win hwin).placed hf (Nat.zero_lt_of_lt g.row_lt) g.cols_pos
  exact ⟨win.bufInfo, win.buf.size, hplaced, wm, win, console, rfl,
    find?_of_mem hr.session.nodup hwin, rfl, hconsole, hvis, hshows⟩

/-- What is displayed after a call that keeps the frames is hosted. -/
theorem hosts_of_displays {win : WmWindow} (hwin : win ∈ wm.windows)
    (hr : Statics.Tracked info created wm) (hd : SameDesktop wm wm') {fbs : Option FrameBufferState} {bufInfo : FrameBufferInfo} {n : ℕ}
    {g' : Grid (win.contentRect.height / FONT_HEIGHT) (win.contentRect.width / FONT_WIDTH)}
    (hdisplays : (Statics.mk (some wm') fbs).Displays win.id bufInfo n win.contentRect shown' g') :
    wm'.Hosts win.id win.contentRect shown' g' := by
  obtain ⟨wm₁, win', console, hwm, hfind, rfl, hconsole, hvis, hshows⟩ := hdisplays.window
  cases hwm
  have hmem := List.mem_of_find?_eq_some hfind
  have hid : win'.id = win.id := by simpa using List.find?_some hfind
  -- the window that is found has the frame it had
  obtain ⟨w, hw, hframe⟩ :=
    List.mem_map.1 (hd.frames ▸ List.mem_map_of_mem (f := WmWindow.frame) hmem)
  have hsame : w = win := by
    have hwid : w.id = win.id := (WmWindow.id_eq_of_frame_eq hframe.symm).symm.trans hid
    have hfound := find?_of_mem hr.session.nodup hw
    rw [hwid, find?_of_mem hr.session.nodup hwin] at hfound
    exact (Option.some.inj hfound).symm
  subst hsame
  refine ⟨win', hmem, hid, WmWindow.contentRect_eq_of_frame_eq hframe.symm, console, hconsole,
    hvis, ?_⟩
  rw [show win'.buf.size = n from hshows.size_eq]
  exact hshows

/-- **`init_console`** makes the window host the blank grid. -/
theorem hosts_initConsole (hf : info.FormatFits) (ht : Statics.Tracked info created wm)
    (hwin : win ∈ wm.windows) (hrows : 0 < win.contentRect.height / FONT_HEIGHT)
    (hcols : 0 < win.contentRect.width / FONT_WIDTH) {fbs : Option FrameBufferState}
    (hst : (Statics.mk (some wm) fbs).initConsole win.id = some ⟨some wm', fbs⟩) :
    wm'.Hosts win.id win.contentRect false (Grid.blank hrows hcols) := by
  obtain ⟨wm₁, hinit, heq⟩ := Statics.updateWm_eq_some hst
  cases heq
  obtain ⟨windows, rfl, hrel⟩ := initConsole_rewritten hf hinit
  obtain ⟨st', hst', hdisplays⟩ := Statics.displays_initConsole fbs
    (find?_of_mem ht.session.nodup hwin) (ht.valid win hwin) hf rfl hrows hcols
  cases hst.symm.trans hst'
  exact hosts_of_displays hwin ht (sameDesktop_of_rewritten wm _ hrel) hdisplays

/-- **A clean screen shows the text of the window on top**, where the cursor of the mouse is not. -/
theorem Hosts.readPixel_of_clean (hf : info.Fits) (ht : Statics.Tracked info created wm)
    (hn : info.Holds wm.bgCache.size) {backBuf : Buf} (hclean : Clean info wm fb backBuf)
    (h : wm.Hosts winId content shown g) {p : ℕ × ℕ} (hp : info.OnScreen p)
    (htop : topmost wm.windows p = some win) (hid : win.id = winId)
    (hin : content.Contains (p.1 - win.x, p.2 - win.y)) (hcursor : wm.cursor.spriteLayer p = none) :
    readPixel fb info p.1 p.2 = some (if shown = true ∧ g.CursorOn content (p.1 - win.x, p.2 - win.y)
      then .white else g.colorAt content (p.1 - win.x, p.2 - win.y)) := by
  obtain ⟨hback, hsize⟩ := size_of_scene hf hclean.scene_eq
  have hlive : info.Live backBuf.size p := by
    rw [hsize]
    exact hn p hp
  -- the scene has the colour of the window there
  have hscene : info.color backBuf p = win.colorAt p := by
    obtain ⟨backBuf', -, -, hcolor⟩ := exists_scene_change (R := fun win win' => win' = win) hf hn
      hclean.scene_eq ht.valid ht.valid (fun win win' heq => ⟨_, _, _, heq⟩)
      (List.forall₂_same.2 fun _ _ => rfl)
    rcases hcolor p hp with ⟨hnone, -⟩ | ⟨win', -, htop', -, heq, -⟩
    · cases hnone.symm.trans htop
    · cases htop'.symm.trans htop
      exact heq
  -- and the window that of its grid
  obtain ⟨w, hw, hwid, rfl, console, -, rfl, hshows⟩ := h
  obtain rfl : w = win := by
    have hfound := find?_of_mem ht.session.nodup hw
    rw [hwid.trans hid.symm, find?_of_mem ht.session.nodup (mem_of_topmost htop)] at hfound
    exact (Option.some.inj hfound).symm
  have hgrid := hshows.color_eq _ hin
  have hon : console.CursorOn (p.1 - w.x, p.2 - w.y) ↔
      g.CursorOn w.contentRect (p.1 - w.x, p.2 - w.y) := by
    rw [Console.CursorOn, Grid.CursorOn, hshows.content_eq, hshows.row_eq, hshows.col_eq]
  rw [FrameBufferInfo.readPixel_eq_seen hf, hclean.seen_eq p hlive, hcursor, Option.getD_none,
    FrameBufferInfo.seen, if_pos hlive, hscene, WmWindow.colorAt, hgrid]
  simp only [hon]

end WindowManager

namespace Statics

open WindowManager

variable {wm : WindowManager} {fb : Buf} {created : List WmWindow} {st st₀ : Statics} {ops : List Op}
  {content : Rect} {shown : Bool} {winId : UInt64}
  {g : Grid (content.height / FONT_HEIGHT) (content.width / FONT_WIDTH)}

omit [BasicFonts] in
/-- A call for the console of a window names the window. -/
theorem Op.target_ne {op : Op} (hop : op.onConsole winId = false) (hinit : op ≠ .initConsole winId) :
    op.target ≠ some winId.toNat := by
  intro h
  cases op with
  | consoleWrite id | consoleShowCursor id | consoleHideCursor id | consoleClear id =>
    obtain rfl : id = winId := UInt64.toNat_inj.1 (Option.some.inj h)
    simp [Op.onConsole] at hop
  | initConsole id =>
    obtain rfl : id = winId := UInt64.toNat_inj.1 (Option.some.inj h)
    exact hinit rfl
  | createWindow | markDirty | handleMouse | composite => cases h

/-- A call for the console of the window, and what it leaves to the discipline. -/
theorem Hosts.call (hf : info.Fits) (ht : Tracked info created wm)
    (h : wm.Hosts winId.toNat content shown g) {op : Op} {ops : List Console.Op}
    (hop : op.onConsole winId = true) (hd : Console.Disciplined shown (op.console ++ ops)) :
    ∃ wm', (Statics.mk (some wm) (some ⟨fb, info⟩)).perform op = some ⟨some wm', some ⟨fb, info⟩⟩ ∧
      wm'.Hosts winId.toNat content (op.console.foldl (fun _ op => op.showsCursor) shown)
        (op.console.foldl Grid.perform g) ∧
      Console.Disciplined (op.console.foldl (fun _ op => op.showsCursor) shown) ops := by
  obtain ⟨bufInfo, n, hdisplays⟩ := h.displays ht hf.formatFits (some ⟨fb, info⟩)
  obtain ⟨st', hst, hdisplays', hd'⟩ := hdisplays.perform hop hd
  have hsame : ∃ wm', st' = ⟨some wm', some ⟨fb, info⟩⟩ ∧ SameDesktop wm wm' := by
    have hconsole : ∀ {f : Console → Buf → FrameBufferInfo → Option (Console × Buf)} {id : ℕ},
        Console.KeepsSize f →
        (Statics.mk (some wm) (some ⟨fb, info⟩)).updateConsole id f = some st' →
        ∃ wm', st' = ⟨some wm', some ⟨fb, info⟩⟩ ∧ SameDesktop wm wm' := by
      intro f id hsize hcall
      obtain ⟨windows, rfl, hrel⟩ := updateConsole_eq_some hsize hcall
      exact ⟨_, rfl, sameDesktop_of_rewritten wm true hrel⟩
    cases op with
    | consoleWrite id s => exact hconsole (Console.keepsSize_writeStr _) hst
    | consoleShowCursor id => exact hconsole Console.keepsSize_drawCursor hst
    | consoleHideCursor id => exact hconsole Console.keepsSize_eraseCursor hst
    | consoleClear id => exact hconsole Console.keepsSize_clear hst
    | markDirty id =>
      obtain ⟨wm', hmark, rfl⟩ := updateWm_eq_some hst
      obtain ⟨windows, rfl, hrel⟩ := markDirty_eq_some hmark
      exact ⟨_, rfl, sameDesktop_of_rewritten wm true hrel⟩
    | createWindow | initConsole | handleMouse | composite => cases hop
  obtain ⟨wm', rfl, hsame⟩ := hsame
  refine ⟨wm', hst, ?_, hd'⟩
  obtain ⟨win, hwin, hid, rfl, -⟩ := h
  rw [← hid] at hdisplays' ⊢
  exact hosts_of_displays hwin ht hsame hdisplays'

/-- The console operations for a window in a run of calls. -/
def consoleOps (winId : UInt64) (ops : List Op) : List Console.Op :=
  (ops.filter (Op.onConsole winId)).flatMap Op.console

omit [BasicFonts] in
theorem consoleOps_cons_of_pos {op : Op} (h : op.onConsole winId = true) (ops : List Op) :
    consoleOps winId (op :: ops) = op.console ++ consoleOps winId ops := by
  rw [consoleOps, List.filter_cons_of_pos h, List.flatMap_cons]
  rfl

omit [BasicFonts] in
theorem consoleOps_cons_of_neg {op : Op} (h : op.onConsole winId = false) (ops : List Op) :
    consoleOps winId (op :: ops) = consoleOps winId ops := by
  rw [consoleOps, List.filter_cons_of_neg (by simp [h])]
  rfl

/-- **A run of calls, of which some are for the console of the window.** -/
theorem Hosts.run (hf : info.Fits) (ht : Tracked info created wm)
    (h : wm.Hosts winId.toNat content shown g) (hinit : Op.initConsole winId ∉ ops)
    (hd : Console.Disciplined shown (consoleOps winId ops))
    (hst : ops.foldlM perform (Statics.mk (some wm) (some ⟨fb, info⟩)) = some st) :
    ∃ wm' fb', st = ⟨some wm', some ⟨fb', info⟩⟩ ∧
      wm'.Hosts winId.toNat content
        ((consoleOps winId ops).foldl (fun _ op => op.showsCursor) shown)
        ((consoleOps winId ops).foldl Grid.perform g) := by
  induction ops generalizing created wm fb shown g with
  | nil =>
    cases hst
    exact ⟨wm, fb, rfl, h⟩
  | cons op ops ih =>
    rw [List.foldlM_cons] at hst
    obtain ⟨st₁, hop, hst⟩ := Option.bind_eq_some_iff.1 hst
    obtain ⟨created₁, wm₁, fb₁, rfl, ht₁, hkeep⟩ := ht.step hf hop
    have hinit' : Op.initConsole winId ∉ ops := fun hmem => hinit (List.mem_cons_of_mem _ hmem)
    cases hon : op.onConsole winId with
    | true =>
      rw [consoleOps_cons_of_pos hon] at hd ⊢
      obtain ⟨wm₂, hop', h₂, hd₂⟩ := Hosts.call hf ht h hon hd
      cases hop.symm.trans hop'
      rw [List.foldl_append, List.foldl_append]
      exact ih ht₁ h₂ hinit' hd₂ hst
    | false =>
      have hne := Op.target_ne hon fun heq => hinit (heq ▸ List.mem_cons_self)
      rw [consoleOps_cons_of_neg hon] at hd ⊢
      exact ih ht₁ (h.keep hkeep hne) hinit' hd hst

/-- The invariant of a run of calls. -/
theorem Tracked.run (hf : info.Fits) (h : Tracked info created wm)
    (hst : ops.foldlM perform (Statics.mk (some wm) (some ⟨fb, info⟩)) = some st) :
    ∃ created' wm' fb', st = ⟨some wm', some ⟨fb', info⟩⟩ ∧ Tracked info created' wm' := by
  induction ops generalizing created wm fb with
  | nil =>
    cases hst
    exact ⟨created, wm, fb, rfl, h⟩
  | cons op ops ih =>
    rw [List.foldlM_cons] at hst
    obtain ⟨st₁, hop, hst⟩ := Option.bind_eq_some_iff.1 hst
    obtain ⟨created₁, wm₁, fb₁, rfl, h₁, -⟩ := h.step hf hop
    exact ih h₁ hst

end Statics

end ROs
