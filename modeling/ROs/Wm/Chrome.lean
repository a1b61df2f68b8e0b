import ROs.Wm.Session

/-!
# The chrome of every window

The chrome of a window covers the same pixels with and without the focus, so redrawing it replaces
it completely; and it covers no pixel of the content.  In a session every window therefore looks
like its chrome on a blank buffer, with the look that the focus says
(`WmWindow.ShowsChrome`, `Session.ShowsChrome.of_trace`).

* `WmWindow.Drawn.not_both` : a window of at least three lines and columns does not have both looks.
* `focus_bookkeeping` : the list of windows, the focus and the pixels of every chrome agree in
  every state of a session.
-/

namespace ROs

/-- A buffer of zeros. -/
def blank (n : ℕ) : Buf := Array.replicate n 0

/-- A second layer hides the first if it covers every point of it. -/
theorem Surface.apply_apply {B P C K : Type*} (S : Surface B P C K) {o o' : Option C} {k : K}
    (h : o = none → o' = none) : S.apply o (S.apply o' k) = S.apply o k := by
  cases o with
  | none => rw [h rfl, Surface.apply_none]
  | some c =>
    cases o' with
    | none => rfl
    | some c' => exact S.mix_mix c c' k

variable [BasicFonts] {screen : FrameBufferInfo} {win win' : WmWindow}
  {windows windows' : List WmWindow}

namespace WmWindow

omit [BasicFonts] in
/-- The pixels of the title bar and of the border. -/
def OnChrome (win : WmWindow) (p : ℕ × ℕ) : Prop :=
  (Rect.mk 0 0 win.width (min DEFAULT_TITLE_BAR_HEIGHT win.height)).Contains p ∨
    OutlineOn win.bufInfo ⟨0, 0, win.width, win.height⟩ p

/-- The chrome covers the same pixels with and without the focus. -/
theorem chromeLayer_eq_none (focused focused' : Bool) {p : ℕ × ℕ}
    (h : win.chromeLayer focused p = none) : win.chromeLayer focused' p = none := by
  simp only [chromeLayer, Layer.atop_apply, Option.or_eq_none_iff, Layer.fill_apply] at h ⊢
  refine ⟨h.1, ?_⟩
  have hbar := h.2
  split at hbar
  · cases hbar
  · rename_i hout
    exact if_neg hout

/-- The chrome covers nothing of the content. -/
theorem chromeLayer_content (hv : win.Valid screen) (focused : Bool) {p : ℕ × ℕ}
    (hp : win.contentRect.Contains p) : win.chromeLayer focused p = none := by
  obtain ⟨hx, hx', hy, hy'⟩ := hp
  simp only [contentRect, WINDOW_PADDING, DEFAULT_TITLE_BAR_HEIGHT] at hx hx' hy hy'
  have hwidth : win.bufInfo.width = win.width := by rw [hv.bufInfo_eq]
  have hheight : win.bufInfo.height = win.height := by rw [hv.bufInfo_eq]
  have hbar : ¬ (Rect.mk 0 0 win.width (min DEFAULT_TITLE_BAR_HEIGHT win.height)).Contains p := by
    rintro ⟨-, -, -, h⟩
    simp only [DEFAULT_TITLE_BAR_HEIGHT] at h
    omega
  -- the border is one pixel wide, and the content starts after the padding
  have hborder : ¬ OutlineOn win.bufInfo ⟨0, 0, win.width, win.height⟩ p := by
    simp only [OutlineOn, hwidth, hheight]
    omega
  have htitle : min DEFAULT_TITLE_BAR_HEIGHT win.height ≥ FONT_HEIGHT →
      textLayer WINDOW_PADDING ((min DEFAULT_TITLE_BAR_HEIGHT win.height - FONT_HEIGHT) / 2)
        win.titleStr ⟨0xF0, 0xF2, 0xF6⟩ p = none := by
    intro htall
    simp only [DEFAULT_TITLE_BAR_HEIGHT] at htall ⊢
    exact textLayer_eq_none (.inr (by omega)) _ _ _
  simp only [chromeLayer, Layer.atop_apply, Layer.fill_apply, if_neg hbar, if_neg hborder]
  split
  · rename_i htall
    rw [htitle htall]
    rfl
  · rfl

/-- The pixels of the window are those of its chrome on a blank buffer. -/
def ShowsChrome (win : WmWindow) (focused : Bool) : Prop :=
  ∀ p, win.bufInfo.Live win.buf.size p → win.bufInfo.pixel win.buf p =
    (win.bufInfo.surface win.buf.size).apply (win.chromeLayer focused p)
      (win.bufInfo.pixel (blank win.buf.size) p)

/-- What drawing the chrome does to the pixels. -/
theorem drawChrome_paints (hfits : win.bufInfo.Fits) {focused : Bool}
    (h : win.drawChrome focused = some win') :
    ∃ buf, win' = { win with buf } ∧ buf.size = win.buf.size ∧
      ∀ p, win.bufInfo.Live win.buf.size p → win.bufInfo.pixel buf p =
        (win.bufInfo.surface win.buf.size).apply (win.chromeLayer focused p)
          (win.bufInfo.pixel win.buf p) := by
  obtain ⟨buf, hchrome, h⟩ := Option.bind_eq_some_iff.1 h
  cases h
  obtain ⟨buf', hchrome', hsize, hlook⟩ := paints_chrome hfits focused win.buf.size win.buf rfl
  cases hchrome.symm.trans hchrome'
  exact ⟨buf, rfl, hsize, hlook⟩

/-- Drawing the chrome of a blank window. -/
theorem showsChrome_of_blank (hfits : win.bufInfo.Fits) (hblank : win.buf = blank win.buf.size)
    {focused : Bool} (h : win.drawChrome focused = some win') : win'.ShowsChrome focused := by
  obtain ⟨buf, rfl, hsize, hlook⟩ := drawChrome_paints hfits h
  intro p hp
  change win.bufInfo.Live buf.size p at hp
  change win.bufInfo.pixel buf p = (win.bufInfo.surface buf.size).apply (win.chromeLayer focused p)
    (win.bufInfo.pixel (blank buf.size) p)
  rw [hsize] at hp ⊢
  rw [hlook p hp, ← hblank]

/-- Redrawing the chrome replaces it. -/
theorem ShowsChrome.redraw (hfits : win.bufInfo.Fits) {focused focused' : Bool}
    (hshow : win.ShowsChrome focused) (h : win.drawChrome focused' = some win') :
    win'.ShowsChrome focused' := by
  obtain ⟨buf, rfl, hsize, hlook⟩ := drawChrome_paints hfits h
  intro p hp
  change win.bufInfo.Live buf.size p at hp
  change win.bufInfo.pixel buf p = (win.bufInfo.surface buf.size).apply (win.chromeLayer focused' p)
    (win.bufInfo.pixel (blank buf.size) p)
  rw [hsize] at hp ⊢
  rw [hlook p hp, hshow p hp]
  exact Surface.apply_apply _ (chromeLayer_eq_none focused' focused)

omit [BasicFonts] in
/-- The window with a blank buffer. -/
def blanked (win : WmWindow) : WmWindow := { win with buf := blank win.buf.size }

/-- The window looks as `draw_chrome` draws it on a blank buffer, and its content is blank. -/
structure Drawn (win : WmWindow) (focused : Bool) : Prop where
  chrome : ∃ drawn, win.blanked.drawChrome focused = some drawn ∧
    ∀ p, win.OnChrome p → win.bufInfo.pixel win.buf p = win.bufInfo.pixel drawn.buf p
  content : ∀ p, win.contentRect.Contains p →
    win.bufInfo.pixel win.buf p = win.bufInfo.pixel win.blanked.buf p

omit [BasicFonts] in
/-- The chrome lies in the window. -/
theorem Valid.onScreen_of_onChrome (hv : win.Valid screen) {p : ℕ × ℕ} (hp : win.OnChrome p) :
    win.bufInfo.OnScreen p := by
  have hwidth : win.bufInfo.width = win.width := by rw [hv.bufInfo_eq]
  have hheight : win.bufInfo.height = win.height := by rw [hv.bufInfo_eq]
  rw [FrameBufferInfo.OnScreen, hwidth, hheight]
  rcases hp with ⟨-, hx, -, hy⟩ | hborder
  · dsimp only at hx hy
    omega
  · simp only [OutlineOn, hwidth, hheight] at hborder
    omega

theorem ShowsChrome.drawn (hf : screen.FormatFits) (hv : win.Valid screen) {focused : Bool}
    (h : win.ShowsChrome focused) : win.Drawn focused := by
  have hfits := hv.fits hf
  refine ⟨?_, fun p hp => ?_⟩
  · obtain ⟨buf, hdraw, -⟩ := exists_drawChrome win.blanked hfits focused
    obtain ⟨buf', heq, -, hlook⟩ := @drawChrome_paints _ win.blanked _ hfits focused hdraw
    refine ⟨_, hdraw, fun p hp => ?_⟩
    have hlive := hv.live_of_onScreen (hv.onScreen_of_onChrome hp)
    have hsize : win.blanked.buf.size = win.buf.size := Array.size_replicate
    rw [hsize] at hlook
    rw [h p hlive, heq]
    exact (hlook p hlive).symm
  · rw [h p (hv.live_of_onScreen (hv.onScreen_of_content hp)), chromeLayer_content hv focused hp]
    rfl

omit [BasicFonts] in
/-- The title bar has another colour with the focus than without it, on every screen. -/
theorem shown_titleBar_ne (info : FrameBufferInfo) :
    info.shown ⟨0x20, 0x3A, 0x58⟩ ≠ info.shown ⟨0x18, 0x2A, 0x40⟩ := by
  unfold FrameBufferInfo.shown
  split <;> decide

/-- The chrome has the colour that the focus says in the corner of the title bar, within the border
and to the left of the title. -/
theorem chromeLayer_corner (hv : win.Valid screen) (hwidth : 3 ≤ win.width) (hheight : 3 ≤ win.height)
    (focused : Bool) : win.chromeLayer focused (1, 1) =
      some (if focused then ⟨0x20, 0x3A, 0x58⟩ else ⟨0x18, 0x2A, 0x40⟩) := by
  have hbar : (Rect.mk 0 0 win.width (min DEFAULT_TITLE_BAR_HEIGHT win.height)).Contains (1, 1) := by
    simp only [Rect.Contains, DEFAULT_TITLE_BAR_HEIGHT]
    omega
  have hborder : ¬ OutlineOn win.bufInfo ⟨0, 0, win.width, win.height⟩ (1, 1) := by
    simp only [OutlineOn, hv.bufInfo_eq]
    omega
  have htitle : ∀ y text c, textLayer WINDOW_PADDING y text c (1, 1) = none := fun y text c =>
    textLayer_eq_none_left (by decide) (by decide) y text c
  simp only [chromeLayer, Layer.atop_apply, Layer.fill_apply, if_pos hbar, if_neg hborder]
  split
  · rw [htitle]
    rfl
  · rfl

/-- The colour of a window in the corner of its title bar. -/
theorem Drawn.color_corner (hf : screen.FormatFits) (hv : win.Valid screen) (hwidth : 3 ≤ win.width)
    (hheight : 3 ≤ win.height) {focused : Bool} (h : win.Drawn focused) :
    win.bufInfo.color win.buf (1, 1) = win.bufInfo.shown
      (if focused then ⟨0x20, 0x3A, 0x58⟩ else ⟨0x18, 0x2A, 0x40⟩) := by
  have hfits := hv.fits hf
  have hon : win.OnChrome (1, 1) := by
    refine .inl ?_
    simp only [Rect.Contains, DEFAULT_TITLE_BAR_HEIGHT]
    omega
  have hlive := hv.live_of_onScreen (hv.onScreen_of_onChrome hon)
  obtain ⟨drawn, hdraw, hchrome⟩ := h.chrome
  obtain ⟨buf, rfl, -, hlook⟩ := @drawChrome_paints _ win.blanked _ hfits focused hdraw
  have hsize : win.blanked.buf.size = win.buf.size := Array.size_replicate
  rw [hsize] at hlook
  have hcolor := FrameBufferInfo.color_of_look hfits.formatFits (hlook (1, 1) hlive)
  rw [show win.blanked.chromeLayer focused (1, 1) = _ from chromeLayer_corner hv hwidth hheight focused]
    at hcolor
  rw [FrameBufferInfo.color, hchrome (1, 1) hon]
  exact hcolor

/-- **The two looks differ**: a window of at least three lines and columns does not show both. -/
theorem Drawn.not_both (hf : screen.FormatFits) (hv : win.Valid screen) (hwidth : 3 ≤ win.width)
    (hheight : 3 ≤ win.height) (h : win.Drawn true) : ¬ win.Drawn false := by
  intro h'
  have hcolor := h.color_corner hf hv hwidth hheight
  rw [h'.color_corner hf hv hwidth hheight] at hcolor
  exact shown_titleBar_ne win.bufInfo hcolor.symm

end WmWindow

namespace WindowManager

omit [BasicFonts] in
/-- With distinct ids, `f` changes the window with the id and leaves the others alone. -/
theorem forall_of_modifyWindow_nodup {f : WmWindow → Option WmWindow} {id : ℕ}
    {P Q : WmWindow → Prop} (hnodup : (windows.map WmWindow.id).Nodup)
    (h : modifyWindow f id windows = some windows')
    (hf : ∀ win win', win.id = id → P win → f win = some win' → Q win')
    (hkeep : ∀ win, win.id ≠ id → P win → Q win) (hP : ∀ win ∈ windows, P win) :
    ∀ win ∈ windows', Q win := by
  induction windows generalizing windows' with
  | nil =>
    cases h
    exact nofun
  | cons win windows ih =>
    rw [List.map_cons, List.nodup_cons] at hnodup
    rw [List.forall_mem_cons] at hP
    rw [modifyWindow] at h
    split at h
    · rename_i hid
      obtain ⟨win', hwin, h⟩ := Option.bind_eq_some_iff.1 h
      cases h
      rw [List.forall_mem_cons]
      refine ⟨hf win win' hid hP.1 hwin, fun w hw => hkeep w (fun heq => ?_) (hP.2 w hw)⟩
      exact hnodup.1 ((hid.trans heq.symm) ▸ List.mem_map_of_mem hw)
    · rename_i hid
      obtain ⟨windows₁, hrest, h⟩ := Option.bind_eq_some_iff.1 h
      cases h
      rw [List.forall_mem_cons]
      exact ⟨hkeep win hid hP.1, ih hnodup.2 hrest hP.2⟩

/-- The windows of the screen show their chrome, with the focus as `look` says. -/
def ShowChrome (screen : FrameBufferInfo) (look : ℕ → Bool) (windows : List WmWindow) : Prop :=
  ∀ win ∈ windows, win.Valid screen ∧ win.ShowsChrome (look win.id)

/-- Redrawing one window changes its look. -/
theorem ShowChrome.redraw (hf : screen.FormatFits) {look : ℕ → Bool} {focused : Bool} {id : ℕ}
    (hnodup : (windows.map WmWindow.id).Nodup)
    (h : WindowManager.redraw focused id windows = some windows')
    (hshow : ShowChrome screen look windows) :
    ShowChrome screen (Function.update look id focused) windows' := by
  refine forall_of_modifyWindow_nodup hnodup h (fun win win' hid hP hd => ?_)
    (fun win hid hP => ?_) hshow
  · obtain ⟨win₁, hdraw, heq⟩ := Option.bind_eq_some_iff.1 hd
    cases heq
    have hshow₁ := hP.2.redraw (hP.1.fits hf) hdraw
    have hvalid := WmWindow.chromeStable_valid hf win win₁ focused hP.1 hdraw
    obtain ⟨buf, rfl⟩ := WmWindow.drawChrome_eq_some hdraw
    refine ⟨hvalid, ?_⟩
    rw [show Function.update look id focused win.id = focused by rw [hid, Function.update_self]]
    exact hshow₁
  · rw [Function.update_of_ne hid]
    exact hP

/-- **A move of the focus** leaves exactly the new window with the look of the focused one. -/
theorem ShowChrome.move (hf : screen.FormatFits) {wm wm' : WindowManager}
    {redrawn : List WmWindow} (hnodup : (wm.windows.map WmWindow.id).Nodup)
    (hunfocus : WindowManager.unfocus wm.focused wm.windows = some redrawn)
    (hredraw : WindowManager.redraw true win.id (bringToFront win.id redrawn) = some wm'.windows)
    (hshow : ShowChrome screen (fun i => wm.focused = some i) wm.windows) :
    ShowChrome screen (fun i => some win.id = some i) wm'.windows := by
  have hids : (redrawn.map WmWindow.id).Nodup := by
    have := congrArg (List.map WmWindow.id) (map_frame_unfocus hunfocus)
    rw [List.map_map, List.map_map] at this
    exact show (redrawn.map (WmWindow.id ∘ WmWindow.frame)).Nodup from this ▸ hnodup
  -- first the window that had the focus loses its look
  have hnone : ShowChrome screen (fun _ => false) redrawn := by
    cases hfocus : wm.focused with
    | none =>
      rw [hfocus] at hunfocus hshow
      cases hunfocus
      exact hshow
    | some oldId =>
      rw [hfocus] at hunfocus hshow
      have h := hshow.redraw hf hnodup hunfocus
      have hlook : Function.update (fun i => decide (some oldId = some i)) oldId false =
          fun _ => false := by
        funext i
        by_cases hi : i = oldId
        · rw [hi, Function.update_self]
        · rw [Function.update_of_ne hi]
          simpa using Ne.symm hi
      rwa [hlook] at h
  have hfront : ShowChrome screen (fun _ => false) (bringToFront win.id redrawn) :=
    fun w hw => hnone w ((bringToFront_perm _ _).mem_iff.1 hw)
  have hids' : ((bringToFront win.id redrawn).map WmWindow.id).Nodup :=
    (((bringToFront_perm _ _).map _).nodup_iff).2 hids
  -- then the new one gets it
  have h := hfront.redraw hf hids' hredraw
  have hlook : Function.update (fun _ => false) win.id true =
      fun i => decide (some win.id = some i) := by
    funext i
    by_cases hi : i = win.id
    · rw [hi, Function.update_self]
      simp
    · rw [Function.update_of_ne hi]
      simpa using Ne.symm hi
  rwa [hlook] at h

end WindowManager

namespace Session

variable {s s' : Session} {call : WmCall} {calls : List WmCall}

/-- Every window of the session shows its chrome, with the look the focus says. -/
def ShowsChrome (screen : FrameBufferInfo) (s : Session) : Prop :=
  WindowManager.ShowChrome screen (fun i => s.wm.focused = some i) s.wm.windows

/-- **Every call keeps the chrome in step with the focus.** -/
theorem ShowsChrome.step (hf : screen.FormatFits) (hinv : Inv screen s)
    (hshow : ShowsChrome screen s) (h : Step s call s') : ShowsChrome screen s' := by
  cases h.effect hinv with
  | @create win frame draw valid zero id nextId windows focused created screen' =>
    rw [hinv.screen_eq] at valid
    have hshow₁ := WmWindow.showsChrome_of_blank (valid.fits hf) zero draw
    have hvalid := valid.drawChrome hf draw
    obtain ⟨buf, rfl⟩ := WmWindow.drawChrome_eq_some draw
    have hfresh : s.wm.focused ≠ some s.wm.nextId := by
      intro heq
      obtain ⟨w, hw, hid⟩ := hinv.focused_mem _ heq
      exact Nat.lt_irrefl _ (hid ▸ hinv.fresh w hw)
    rw [ShowsChrome, windows, focused]
    intro w hw
    rcases List.mem_append.1 hw with hw | hw
    · -- an old window: it has the focus now exactly if it had it before
      have hold := hshow w hw
      have hne : s.wm.focused ≠ none := fun hnone => by
        rw [hinv.focused_eq_none.1 hnone] at hw
        cases hw
      rwa [if_neg hne]
    · rw [List.mem_singleton.1 hw]
      refine ⟨hvalid, ?_⟩
      have hlook : decide ((if s.wm.focused = none then some s.wm.nextId else s.wm.focused) =
          some frame.id) = decide (s.wm.focused = none ∨ s.wm.focused = some s.wm.nextId) := by
        rw [id]
        split
        · simp [*]
        · simp [*]
      rw [← hlook] at hshow₁
      exact hshow₁
  | focus effect nextId created screen' =>
    cases effect with
    | keep windows focused =>
      rw [ShowsChrome, windows, focused]
      exact hshow
    | @move win redrawn mem change focused unfocus redraw =>
      rw [ShowsChrome, focused]
      exact hshow.move hf hinv.nodup unfocus redraw

theorem ShowsChrome.of_trace (hf : screen.FormatFits) {wm : WindowManager}
    (hnew : WindowManager.new screen = some wm) (h : Trace Step ⟨wm, []⟩ calls s) :
    ShowsChrome screen s := by
  have hstart : ShowsChrome screen ⟨wm, []⟩ := by
    intro win hwin
    rw [(WindowManager.new_eq_some hnew).1] at hwin
    cases hwin
  exact (h.invariant (I := fun s => Inv screen s ∧ ShowsChrome screen s)
    (fun _ _ _ hI hst => ⟨hI.1.step hst, hI.2.step hf hI.1 hst⟩) ⟨inv_new hnew, hstart⟩).2

/-- A call that leaves the focus alone only appends what it creates; one that changes it moves the
new window to the end and nothing else. -/
structure FocusMoves (s s' : Session) : Prop where
  kept : s'.wm.focused = s.wm.focused → ∃ new, s'.created = s.created ++ new ∧
    s'.wm.windows.map WmWindow.frame = s.wm.windows.map WmWindow.frame ++ new
  moved : s'.wm.focused ≠ s.wm.focused → ∃ frame, s'.wm.focused = some frame.id ∧
    s'.wm.windows.map WmWindow.frame =
      ((s.wm.windows.map WmWindow.frame).filter fun w => w.id ≠ frame.id) ++ [frame]

theorem focusMoves (hinv : Inv screen s) (h : Step s call s') : FocusMoves s s' := by
  cases h.effect hinv with
  | @create win frame draw valid zero id nextId windows focused created screen' =>
    obtain ⟨buf, rfl⟩ := WmWindow.drawChrome_eq_some draw
    constructor
    · intro _
      exact ⟨[frame.frame], created, by rw [windows, List.map_append]; rfl⟩
    · intro hne
      by_cases hnone : s.wm.focused = none
      · rw [if_pos hnone] at focused
        refine ⟨frame.frame, by rw [focused]; exact congrArg some id.symm, ?_⟩
        rw [windows, hinv.focused_eq_none.1 hnone]
        rfl
      · rw [if_neg hnone] at focused
        exact absurd focused hne
  | focus effect nextId created screen' =>
    cases effect with
    | keep windows focused =>
      exact ⟨fun _ => ⟨[], by rw [created, List.append_nil], by rw [windows, List.append_nil]⟩,
        fun hne => absurd focused hne⟩
    | @move win redrawn mem change focused unfocus redraw =>
      have hmove := WindowManager.FocusEffect.map_frame_eq hinv.nodup mem rfl unfocus redraw
      exact ⟨fun hsame => absurd (hsame.symm.trans focused) change, fun _ =>
        ⟨win.frame, focused, hmove⟩⟩

omit [BasicFonts] in
/-- The ids after a change of the focus. -/
theorem FocusMoves.map_id (h : FocusMoves s s') {id : ℕ} (hfocused : s'.wm.focused = some id)
    (hne : s.wm.focused ≠ some id) : s'.wm.windows.map WmWindow.id =
      ((s.wm.windows.map WmWindow.id).filter fun i => i ≠ id) ++ [id] := by
  obtain ⟨frame, hframe, hframes⟩ := h.moved (by rw [hfocused]; exact Ne.symm hne)
  cases hfocused.symm.trans hframe
  have hids := congrArg (List.map WmWindow.id) hframes
  rw [List.map_append, List.map_map, List.filter_map, List.map_map] at hids
  rw [List.filter_map]
  exact hids

/-- A window can be given the focus. -/
theorem exists_focusWindow (hf : screen.FormatFits) (hinv : Inv screen s) (hready : Ready screen s)
    (hwin : win ∈ s.wm.windows) :
    ∃ s', Step s (.focusWindow win.id) s' ∧ s'.wm.focused = some win.id ∧
      s'.created = s.created := by
  obtain ⟨wm', hfocus⟩ :=
    WindowManager.exists_focusWindow (fun w hw => (hready.valid w hw).fits hf) win.id
  have hmem : win.frame ∈ s.created := hinv.perm.mem_iff.1 (List.mem_map_of_mem hwin)
  have hst : Step s (.focusWindow win.frame.id) ⟨wm', s.created⟩ := .focusWindow hmem hfocus
  exact ⟨⟨wm', s.created⟩, hst,
    (WindowManager.focusEffect_of_focusWindow hwin hfocus).2.1, rfl⟩

/-- Every window is still there after a call, with the content it had. -/
def ContentKept (s s' : Session) : Prop :=
  ∀ win ∈ s.wm.windows, ∃ win' ∈ s'.wm.windows, win'.frame = win.frame ∧
    ∀ p, win.contentRect.Contains p → win'.bufInfo.pixel win'.buf p = win.bufInfo.pixel win.buf p

theorem created_subset (h : Step s call s') : s.created ⊆ s'.created := by
  cases h with
  | createWindow _ => exact List.subset_append_left _ _
  | focusWindow _ _ => exact List.Subset.refl _
  | handleMouse _ => exact List.Subset.refl _

theorem contentKept (hf : screen.FormatFits) (hinv : Inv screen s) (hshow : ShowsChrome screen s)
    (h : Step s call s') : ContentKept s s' := by
  have hinv' := hinv.step h
  have hshow' := hshow.step hf hinv h
  intro win hwin
  have hframe : win.frame ∈ s'.wm.windows.map WmWindow.frame :=
    hinv'.perm.mem_iff.2 (created_subset h (hinv.perm.mem_iff.1 (List.mem_map_of_mem hwin)))
  obtain ⟨win', hwin', heq⟩ := List.mem_map.1 hframe
  obtain ⟨hv, hchrome⟩ := hshow win hwin
  obtain ⟨hv', hchrome'⟩ := hshow' win' hwin'
  have hinfo : win'.bufInfo = win.bufInfo := congrArg (fun w => w.bufInfo) heq
  have hwidth : win'.width = win.width := congrArg (fun w => w.width) heq
  have hheight : win'.height = win.height := congrArg (fun w => w.height) heq
  have hcontent : win'.contentRect = win.contentRect := by
    rw [WmWindow.contentRect, WmWindow.contentRect, hwidth, hheight]
  have hbuf : win'.blanked.buf = win.blanked.buf := by
    rw [WmWindow.blanked, WmWindow.blanked, hv.size_eq, hv'.size_eq, hwidth, hheight]
  refine ⟨win', hwin', heq, fun p hp => ?_⟩
  rw [(hchrome.drawn hf hv).content p hp, (hchrome'.drawn hf hv').content p (hcontent ▸ hp), hbuf,
    hinfo]

end Session

/-- **The list of windows, the focus and the chromes are one bookkeeping.**  In every state of a
session the windows are the created ones with distinct ids, the focus names one of them, and
every window shows its chrome with the look of its focus around a blank content.  A call changes
the order only when it changes the focus, and then moves the new window to the end; and no call
changes the content of a window. -/
theorem focus_bookkeeping (hf : screen.FormatFits) {wm₀ : WindowManager} {calls : List WmCall}
    {s : Session} (hnew : WindowManager.new screen = some wm₀)
    (hrun : Trace Session.Step ⟨wm₀, []⟩ calls s) :
    Session.Inv screen s ∧
      (∀ win ∈ s.wm.windows, win.Drawn (s.wm.focused = some win.id)) ∧
      ∀ call s', Session.Step s call s' → Session.FocusMoves s s' ∧ Session.ContentKept s s' := by
  have hinv := Session.Inv.of_trace hnew hrun
  have hshow := Session.ShowsChrome.of_trace hf hnew hrun
  refine ⟨hinv, fun win hwin => ?_, fun call s' hst => ?_⟩
  · obtain ⟨hv, hchrome⟩ := hshow win hwin
    exact hchrome.drawn hf hv
  · exact ⟨Session.focusMoves hinv hst, Session.contentKept hf hinv hshow hst⟩

omit [BasicFonts] in
/-- The focus goes to the upper window and back to the lower one, which then lies on top. -/
theorem focus_bookkeeping_twoWindows :
    let _ := BasicFonts.sample
    ∃ wm₀ s, WindowManager.new TwoWindows.screen = some wm₀ ∧
      Trace Session.Step ⟨wm₀, []⟩ (TwoWindows.calls ++ [.focusWindow 1, .focusWindow 0]) s ∧
      s.wm.windows.map WmWindow.id = [1, 0] ∧
      ∀ win ∈ s.wm.windows, win.Drawn (decide (win.id = 0)) ∧ ¬ win.Drawn (decide (win.id = 1)) := by
  intro _
  have hf := TwoWindows.fits_screen.formatFits
  obtain ⟨wm₀, s, win₀, win₁, hnew, hrun, hwindows, hid₀, hrect₀, hrect₁, hid₁, -, -, hfocused, -⟩ :=
    TwoWindows.exists_session
  obtain ⟨hinv, -, hstep⟩ := focus_bookkeeping hf hnew hrun
  -- the upper window
  have hmem₁ : win₁ ∈ s.wm.windows := by
    rw [hwindows]
    simp
  obtain ⟨s₁, hst₁, hfocused₁, hcreated₁⟩ :=
    Session.exists_focusWindow hf hinv (.of_trace hf hnew hrun) hmem₁
  have hids₁ := (hstep _ _ hst₁).1.map_id hfocused₁ (by rw [hfocused, hid₁]; decide)
  rw [hid₁] at hst₁ hfocused₁
  rw [hwindows, hid₁, List.map_cons, List.map_singleton, hid₀, hid₁] at hids₁
  have hrun₁ := hrun.append (.single hst₁)
  obtain ⟨hinv₁, -, hstep₁⟩ := focus_bookkeeping hf hnew hrun₁
  -- the lower one
  obtain ⟨win, hwin, hid⟩ := List.mem_map.1 (show 0 ∈ s₁.wm.windows.map WmWindow.id by
    rw [hids₁]; decide)
  obtain ⟨s₂, hst₂, hfocused₂, hcreated₂⟩ :=
    Session.exists_focusWindow hf hinv₁ (.of_trace hf hnew hrun₁) hwin
  have hids₂ := (hstep₁ _ _ hst₂).1.map_id hfocused₂ (by rw [hfocused₁, hid]; decide)
  rw [hid] at hst₂ hfocused₂ hids₂
  rw [hids₁] at hids₂
  have hids : s₂.wm.windows.map WmWindow.id = [1, 0] := hids₂
  have hrun₂ := hrun₁.append (.single hst₂)
  rw [List.append_assoc] at hrun₂
  obtain ⟨hinv₂, hdrawn, -⟩ := focus_bookkeeping hf hnew hrun₂
  refine ⟨wm₀, s₂, hnew, hrun₂, hids, fun win hwin => ?_⟩
  have hlook := hdrawn win hwin
  have hid : win.id = 0 ∨ win.id = 1 := by
    have hmem : win.id ∈ [1, 0] := hids ▸ List.mem_map_of_mem hwin
    simpa [or_comm] using hmem
  have hsize : 3 ≤ win.width ∧ 3 ≤ win.height := by
    have hmem : win.frame ∈ s.wm.windows.map WmWindow.frame := by
      rw [hinv.perm.mem_iff, ← hcreated₁, ← hcreated₂, ← hinv₂.perm.mem_iff]
      exact List.mem_map_of_mem hwin
    obtain ⟨win', hwin', hframe⟩ := List.mem_map.1 hmem
    have hrect : win'.frame.rect = win.frame.rect := congrArg WmWindow.rect hframe
    have hor : win'.rect = ⟨0, 0, 8, 12⟩ ∨ win'.rect = ⟨4, 0, 4, 12⟩ := by
      rw [hwindows] at hwin'
      rcases List.mem_pair.1 hwin' with rfl | rfl
      · exact .inl hrect₀
      · exact .inr hrect₁
    change win'.rect = win.rect at hrect
    rw [hrect, WmWindow.rect, Rect.mk.injEq, Rect.mk.injEq] at hor
    omega
  have hvalid := (Session.Ready.of_trace hf hnew hrun₂).valid win hwin
  rw [hfocused₂] at hlook
  rcases hid with hid | hid
  · rw [hid] at hlook ⊢
    exact ⟨hlook, WmWindow.Drawn.not_both hf hvalid hsize.1 hsize.2 hlook⟩
  · rw [hid] at hlook ⊢
    exact ⟨hlook, fun hboth => hboth.not_both hf hvalid hsize.1 hsize.2 hlook⟩

end ROs
