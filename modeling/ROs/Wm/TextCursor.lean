import ROs.Framebuffer.ConsoleGrid
import ROs.Wm.Text

/-!
# The text cursor and the content of its window

The cursor of a console is a bar at the left edge of the cell at its position.  The position ranges
over one column more than there are cells, and over the first cell of a content that has none
(`Console.InRange`), so the bar can leave the content of the window in two ways: to the right of the
last column, if the columns fill the content, and downwards, if the content is lower than a row.

* `WmWindow.cursor_confined_iff` : **drawing and erasing the cursor change nothing outside of the
  content, exactly if neither of the two happens** (`WmWindow.CursorFits`).
-/

namespace ROs

namespace Console

/-- The positions that a console on this content can have. -/
structure InRange (content : Rect) (console : Console) : Prop where
  content_eq : console.content = content
  rows_eq : console.rows = content.height / FONT_HEIGHT
  cols_eq : console.cols = content.width / FONT_WIDTH
  /-- Without rows, the position is in row 0. -/
  row_le : console.row ≤ console.rows - 1
  col_le : console.col ≤ console.cols

variable {info : FrameBufferInfo} {n : ℕ} {content : Rect} {console console' : Console}
  {buf buf' : Buf}

theorem inRange_of_new (h : new buf info content = some (console, buf')) :
    InRange content console := by
  obtain ⟨buf₁, -, h⟩ := Option.bind_eq_some_iff.1 h
  cases h
  exact ⟨rfl, rfl, rfl, Nat.zero_le _, Nat.zero_le _⟩

theorem InRange.scrollUp (h : InRange content console) (hcol : console.col ≤ console.cols) {row : ℕ}
    (hscroll : ({ console with row } : Console).scrollUp buf info = some (console', buf'))
    (hrows : console.rows ≠ 0) : InRange content console' ∧ console'.col = console.col := by
  rw [Console.scrollUp, if_neg hrows] at hscroll
  obtain ⟨buf₁, -, hscroll⟩ := Option.bind_eq_some_iff.1 hscroll
  obtain ⟨buf₂, -, hscroll⟩ := Option.bind_eq_some_iff.1 hscroll
  cases hscroll
  exact ⟨⟨h.content_eq, h.rows_eq, h.cols_eq, Nat.le_refl _, hcol⟩, rfl⟩

theorem InRange.nextLine (h : InRange content console) (hrows : console.rows ≠ 0)
    (hnext : console.nextLine buf info = some (console', buf')) :
    InRange content console' ∧ console'.col = 0 := by
  unfold Console.nextLine at hnext
  dsimp only at hnext
  split at hnext
  · have hzero : InRange content { console with col := 0 } :=
      ⟨h.content_eq, h.rows_eq, h.cols_eq, h.row_le, Nat.zero_le _⟩
    exact hzero.scrollUp (Nat.zero_le _) hnext hrows
  · rename_i hlt
    cases hnext
    exact ⟨⟨h.content_eq, h.rows_eq, h.cols_eq, by dsimp only; omega, Nat.zero_le _⟩, rfl⟩

/-- A character is drawn where there is room, and the position moves on. -/
theorem InRange.printed (h : InRange content console) (hcol : console.col < console.cols)
    {d : Option Buf}
    (hw : (d.bind fun buf => some ({ console with col := console.col + 1 }, buf)) =
      some (console', buf')) : InRange content console' := by
  obtain ⟨buf₁, -, hw⟩ := Option.bind_eq_some_iff.1 hw
  cases hw
  exact ⟨h.content_eq, h.rows_eq, h.cols_eq, h.row_le, hcol⟩

variable [BasicFonts]

theorem InRange.writeChar (h : InRange content console) (c : Char)
    (hw : console.writeChar buf info c = some (console', buf')) : InRange content console' := by
  have hrow := h.row_le
  have hcol := h.col_le
  unfold Console.writeChar at hw
  split at hw
  · cases hw
    exact h
  rename_i hne
  rw [not_or] at hne
  split at hw
  · exact (h.nextLine hne.1 hw).1
  split at hw
  · cases hw
    exact ⟨h.content_eq, h.rows_eq, h.cols_eq, hrow, Nat.zero_le _⟩
  split at hw
  · split at hw
    · obtain ⟨buf₁, -, hw⟩ := Option.bind_eq_some_iff.1 hw
      cases hw
      exact ⟨h.content_eq, h.rows_eq, h.cols_eq, hrow, by dsimp only; omega⟩
    · cases hw
      exact h
  split at hw
  · obtain ⟨⟨console₁, buf₁⟩, hnext, hw⟩ := Option.bind_eq_some_iff.1 hw
    obtain ⟨h₁, hcol₁⟩ := h.nextLine hne.1 hnext
    have hcols := h₁.cols_eq.trans h.cols_eq.symm
    exact h₁.printed (by omega) hw
  · exact h.printed (by omega) hw

theorem InRange.writeStr (h : InRange content console) (cs : List Char)
    (hw : console.writeStr buf info cs = some (console', buf')) : InRange content console' := by
  induction cs generalizing console buf with
  | nil =>
    cases hw
    exact h
  | cons c cs ih =>
    simp only [Console.writeStr, List.foldlM_cons] at hw
    obtain ⟨⟨console₁, buf₁⟩, hchar, hw⟩ := Option.bind_eq_some_iff.1 hw
    exact ih (h.writeChar c hchar) hw

/-- **No operation takes the position out of its range.** -/
theorem InRange.perform (h : InRange content console) (op : Op)
    (hop : Console.perform info (console, buf) op = some (console', buf')) :
    InRange content console' := by
  cases op with
  | writeChar c => exact h.writeChar c hop
  | writeStr s => exact h.writeStr _ hop
  | clear =>
    obtain ⟨buf₁, -, hop⟩ := Option.bind_eq_some_iff.1 hop
    cases hop
    exact ⟨h.content_eq, h.rows_eq, h.cols_eq, Nat.zero_le _, Nat.zero_le _⟩
  | drawCursor =>
    change console.drawCursor buf info = _ at hop
    unfold Console.drawCursor at hop
    split at hop
    · cases hop
      exact h
    · obtain ⟨buf₁, -, hop⟩ := Option.bind_eq_some_iff.1 hop
      cases hop
      exact ⟨h.content_eq, h.rows_eq, h.cols_eq, h.row_le, h.col_le⟩
  | eraseCursor =>
    change console.eraseCursor buf info = _ at hop
    unfold Console.eraseCursor at hop
    split at hop
    · obtain ⟨buf₁, -, hop⟩ := Option.bind_eq_some_iff.1 hop
      cases hop
      exact ⟨h.content_eq, h.rows_eq, h.cols_eq, h.row_le, h.col_le⟩
    · cases hop
      exact h

theorem keepsSize_perform (op : Op) :
    KeepsSize fun self buf info => Console.perform info (self, buf) op := by
  cases op with
  | writeChar c => exact keepsSize_writeChar c
  | writeStr s => exact keepsSize_writeStr s.toList
  | clear => exact keepsSize_clear
  | drawCursor => exact keepsSize_drawCursor
  | eraseCursor => exact keepsSize_eraseCursor

/-- The same for a run. -/
theorem InRange.run (h : InRange content console) {ops : List Op}
    (hrun : ops.foldlM (Console.perform info) (console, buf) = some (console', buf')) :
    InRange content console' ∧ buf'.size = buf.size := by
  induction ops generalizing console buf with
  | nil =>
    cases hrun
    exact ⟨h, rfl⟩
  | cons op ops ih =>
    rw [List.foldlM_cons] at hrun
    obtain ⟨⟨console₁, buf₁⟩, hop, hrun⟩ := Option.bind_eq_some_iff.1 hrun
    obtain ⟨h', hsize⟩ := ih (h.perform op hop) hrun
    exact ⟨h', hsize.trans (keepsSize_perform op _ _ _ _ _ hop)⟩

/-! ### The pixels of the bar -/

omit [BasicFonts]

/-- Drawing or erasing the cursor leaves every pixel outside of the content as it is. -/
def Confined (info : FrameBufferInfo) (console : Console) (buf : Buf) : Prop :=
  ∀ console' buf', console.drawCursor buf info = some (console', buf') ∨
      console.eraseCursor buf info = some (console', buf') →
    ∀ p, info.OnScreen p → ¬ console.content.Contains p → info.pixel buf' p = info.pixel buf p

/-- The colour in which the next of the two functions paints the bar: the other one does nothing. -/
def nextColor (console : Console) : Color := if console.cursorVisible then .black else .white

/-- What the two functions do. -/
theorem draws_or_erases (hf : info.Fits) (console : Console) (hbuf : buf.size = n) :
    ∃ buf₁ console₁, buf₁.size = n ∧
      (∀ p, info.Live n p → info.pixel buf₁ p =
        if console.CursorOn p then info.overlay console.nextColor (info.pixel buf p)
        else info.pixel buf p) ∧
      (console.drawCursor buf info = some (console₁, buf₁) ∨
        console.eraseCursor buf info = some (console₁, buf₁)) ∧
      ∀ console' buf', console.drawCursor buf info = some (console', buf') ∨
        console.eraseCursor buf info = some (console', buf') → buf' = buf₁ ∨ buf' = buf := by
  obtain ⟨buf₁, hpaint, hsize, hlook⟩ := console.paints_cursor hf console.nextColor buf hbuf
  have hpix : ∀ p, info.Live n p → info.pixel buf₁ p =
      if console.CursorOn p then info.overlay console.nextColor (info.pixel buf p)
      else info.pixel buf p := by
    intro p hp
    refine (hlook p hp).trans ?_
    rw [Layer.fill_apply]
    split
    · rfl
    · rfl
  cases hv : console.cursorVisible with
  | true =>
    rw [nextColor, hv] at hpaint
    have hdraw : console.drawCursor buf info = some (console, buf) := by
      rw [drawCursor, if_pos hv]
    have herase : console.eraseCursor buf info =
        some ({ console with cursorVisible := false }, buf₁) := by
      rw [eraseCursor, if_pos hv]
      exact Option.bind_eq_some_iff.2 ⟨buf₁, hpaint, rfl⟩
    refine ⟨buf₁, _, hsize, hpix, .inr herase, fun console' buf' h => ?_⟩
    rw [hdraw, herase] at h
    rcases h with h | h
    · exact .inr (congrArg Prod.snd (Option.some.inj h)).symm
    · exact .inl (congrArg Prod.snd (Option.some.inj h)).symm
  | false =>
    rw [nextColor, hv] at hpaint
    have hdraw : console.drawCursor buf info =
        some ({ console with cursorVisible := true }, buf₁) := by
      rw [drawCursor, if_neg (by simp [hv])]
      exact Option.bind_eq_some_iff.2 ⟨buf₁, hpaint, rfl⟩
    have herase : console.eraseCursor buf info = some (console, buf) := by
      rw [eraseCursor, if_neg (by simp [hv])]
    refine ⟨buf₁, _, hsize, hpix, .inl hdraw, fun console' buf' h => ?_⟩
    rw [hdraw, herase] at h
    rcases h with h | h
    · exact .inl (congrArg Prod.snd (Option.some.inj h)).symm
    · exact .inr (congrArg Prod.snd (Option.some.inj h)).symm

/-- **The bar is confined on every buffer, exactly if its points are in the content.** -/
theorem confined_iff (hf : info.Fits) (hlive : ∀ p, info.OnScreen p → info.Live n p)
    (console : Console) :
    (∀ buf : Buf, buf.size = n → console.Confined info buf) ↔
      ∀ p, info.OnScreen p → console.CursorOn p → console.content.Contains p := by
  constructor
  · intro h p hp hon
    by_contra hout
    -- a buffer with the other colour at `p`
    obtain ⟨buf, -, hsize, hcolor⟩ := FrameBufferInfo.exists_color_of_paints hf.formatFits
      (FrameBufferInfo.paints_putPixel hf p (if console.cursorVisible then .white else .black))
      (show (Array.replicate n 0 : Buf).size = n by simp)
    obtain ⟨buf₁, console₁, -, hpix, hcall, -⟩ := console.draws_or_erases hf hsize
    have hsame := h buf hsize console₁ buf₁ hcall p hp hout
    rw [hpix p (hlive p hp), if_pos hon] at hsame
    have hbefore := hcolor p (hlive p hp)
    rw [Layer.fill_apply, if_pos rfl] at hbefore
    have hafter := congrArg info.decode hsame
    rw [FrameBufferInfo.decode_overlay hf.formatFits] at hafter
    change _ = info.color buf p at hafter
    rw [hbefore, nextColor] at hafter
    have hne : Color.white ≠ .black := by decide
    cases hv : console.cursorVisible with
    | true =>
      rw [hv] at hafter
      exact hne (by simpa using hafter.symm)
    | false =>
      rw [hv] at hafter
      exact hne (by simpa using hafter)
  · intro h buf hsize console' buf' hcall p hp hout
    obtain ⟨buf₁, -, -, hpix, -, hcalls⟩ := console.draws_or_erases hf hsize
    rcases hcalls console' buf' hcall with rfl | rfl
    · rw [hpix p (hlive p hp), if_neg fun hon => hout (h p hp hon)]
    · rfl

end Console

/-! ### The bar in a window -/

namespace WmWindow

open Console

/-- No pixel of the bar is on the window, or the content has room for a row and the position is left
of its right edge. -/
def CursorFits (win : WmWindow) (console : Console) : Prop :=
  win.width ≤ WINDOW_PADDING ∨ win.height ≤ DEFAULT_TITLE_BAR_HEIGHT + WINDOW_PADDING ∨
    FONT_HEIGHT ≤ win.contentRect.height ∧ console.col * FONT_WIDTH < win.contentRect.width

instance (win : WmWindow) (console : Console) : Decidable (win.CursorFits console) :=
  inferInstanceAs (Decidable (_ ∨ _))

variable {screen : FrameBufferInfo} {win : WmWindow} {console : Console}

/-- The points of the bar that are on the window lie in its content. -/
theorem cursorOn_inside_iff (hv : win.Valid screen) (h : InRange win.contentRect console) :
    (∀ p, win.bufInfo.OnScreen p → console.CursorOn p → console.content.Contains p) ↔
      win.CursorFits console := by
  have hrows := h.rows_eq
  have hcols := h.cols_eq
  have hrow := h.row_le
  have hcol := h.col_le
  simp only [FrameBufferInfo.OnScreen, CursorOn, CursorFits, Rect.Contains, h.content_eq,
    hv.bufInfo_eq]
  simp only [contentRect, FONT_WIDTH, FONT_HEIGHT, FONT_SCALE_X, FONT_SCALE_Y, WINDOW_PADDING,
    DEFAULT_TITLE_BAR_HEIGHT] at hrows hcols ⊢
  constructor
  · intro hin
    by_contra hfits
    simp only [not_or, not_and, Nat.not_le, Nat.not_lt] at hfits
    obtain ⟨hwidth, hheight, hfits⟩ := hfits
    by_cases hroom : 16 ≤ win.height - (min 24 win.height + 12)
    · -- the bar stands right of the content
      have := hfits (by omega)
      have := hin (6 + console.col * 8, min 24 win.height + 6 + console.row * 16)
        ⟨by dsimp only; omega, by dsimp only; omega⟩
        ⟨rfl, Nat.le_refl _, Nat.lt_add_of_pos_right (by omega)⟩
      dsimp only at this
      omega
    · -- the bar reaches below the content
      have := hin (6 + console.col * 8, min 24 win.height + 6 + (win.height - (min 24 win.height + 12)))
        ⟨by dsimp only; omega, by dsimp only; omega⟩
        ⟨rfl, by dsimp only; omega, by dsimp only; omega⟩
      dsimp only at this
      omega
  · intro hfits p hp hon
    omega

variable [BasicFonts]

/-- **The text cursor stays inside the content, exactly if `CursorFits`**: in every state that the
console `init_console` makes can reach, on every window. -/
theorem cursor_confined_iff (hv : win.Valid screen) (hf : screen.FormatFits) :
    ∃ console₀ buf₀, Console.new win.buf win.bufInfo win.contentRect = some (console₀, buf₀) ∧
      ∀ (ops : List Op) console buf,
        ops.foldlM (perform win.bufInfo) (console₀, buf₀) = some (console, buf) →
        (win.CursorFits console → console.Confined win.bufInfo buf) ∧
        ((∀ buf : Buf, buf.size = win.buf.size → console.Confined win.bufInfo buf) ↔
          win.CursorFits console) := by
  have hfits := hv.fits hf
  obtain ⟨buf₀, hfill⟩ := exists_fillRect hfits win.contentRect.x win.contentRect.y
    win.contentRect.width win.contentRect.height .black win.buf
  have hsize₀ : buf₀.size = win.buf.size := keepsSize_fillRect _ _ _ _ _ _ _ hfill
  obtain ⟨console₀, hnew⟩ : ∃ console₀,
      Console.new win.buf win.bufInfo win.contentRect = some (console₀, buf₀) :=
    ⟨_, by rw [Console.new, hfill]; rfl⟩
  refine ⟨console₀, buf₀, hnew, fun ops console buf hrun => ?_⟩
  obtain ⟨h, hsize⟩ := (inRange_of_new hnew).run hrun
  have hiff : (∀ buf : Buf, buf.size = win.buf.size → console.Confined win.bufInfo buf) ↔
      win.CursorFits console :=
    (confined_iff hfits (fun _ => hv.live_of_onScreen) console).trans (cursorOn_inside_iff hv h)
  exact ⟨fun hin => hiff.2 hin buf (hsize.trans hsize₀), hiff⟩

/-- A window with one row, whose content is `width - 12` wide. -/
def oneRow (width : ℕ) : WmWindow where
  id := 0
  x := 0
  y := 0
  width := width
  height := 52
  title := Vector.replicate _ 0
  titleLen := 0
  titleLen_le := Nat.zero_le _
  buf := Array.replicate (width * 52 * 3) 0
  bufInfo := ⟨width, 52, .rgb, 3, width⟩
  console := none
  dirty := false
  ownerTask := 0

omit [BasicFonts] in
theorem valid_oneRow {width : ℕ} (h : width ≤ 21) : (oneRow width).Valid ⟨64, 64, .rgb, 3, 64⟩ where
  bufInfo_eq := rfl
  size_eq := Array.size_replicate
  size_le := by
    rw [show (oneRow width).buf.size = width * 52 * 3 from Array.size_replicate]
    exact Nat.le_trans (show width * 52 * 3 ≤ 21 * 52 * 3 by omega) (by decide)
  width_le := Nat.le_trans h (by decide)
  height_le := show 52 ≤ USIZE_MAX by decide

omit [BasicFonts] in
/-- With a column to spare, the cursor stands inside after the last character of the row. -/
theorem cursor_confined_iff_spare :
    let _ := BasicFonts.sample
    ∃ console₀ buf₀ console buf, Console.new (oneRow 21).buf (oneRow 21).bufInfo
        (oneRow 21).contentRect = some (console₀, buf₀) ∧
      [Op.writeChar 'o'].foldlM (perform (oneRow 21).bufInfo) (console₀, buf₀) =
        some (console, buf) ∧
      console.col = console.cols ∧ console.Confined (oneRow 21).bufInfo buf := by
  intro _
  have hf : (⟨64, 64, .rgb, 3, 64⟩ : FrameBufferInfo).FormatFits := Nat.le_refl 3
  have hv := valid_oneRow (Nat.le_refl 21)
  have hP := hv.placed hf (by decide) (by decide)
  obtain ⟨console₀, buf₀, hnew, -, h₀⟩ := exists_new_prints hP (by decide) (by decide) rfl
  obtain ⟨console, buf, hw, -, h⟩ := h₀.writeChar hP 'o'
  have hrun : [Op.writeChar 'o'].foldlM (perform (oneRow 21).bufInfo) (console₀, buf₀) =
      some (console, buf) := by
    rw [List.foldlM_cons, show perform (oneRow 21).bufInfo (console₀, buf₀) (.writeChar 'o') =
      some (console, buf) from hw]
    rfl
  obtain ⟨console₁, buf₁, hnew₁, hall⟩ := cursor_confined_iff hv hf
  rw [hnew, Option.some.injEq, Prod.mk.injEq] at hnew₁
  obtain ⟨rfl, rfl⟩ := hnew₁
  have hcol : console.col = 1 := h.col_eq.trans (by decide)
  refine ⟨console₀, buf₀, console, buf, hnew, hrun, hcol.trans (h.cols_eq.trans (by decide)).symm,
    (hall _ _ _ hrun).1 (.inr (.inr ⟨by decide, ?_⟩))⟩
  rw [hcol]
  decide

omit [BasicFonts] in
/-- Without a column to spare, it stands in the padding of the window. -/
theorem cursor_leaves_content :
    let _ := BasicFonts.sample
    ∃ console₀ buf₀ console buf console' buf', Console.new (oneRow 20).buf (oneRow 20).bufInfo
        (oneRow 20).contentRect = some (console₀, buf₀) ∧
      console₀.writeChar buf₀ (oneRow 20).bufInfo 'o' = some (console, buf) ∧
      console.drawCursor buf (oneRow 20).bufInfo = some (console', buf') ∧
      console.col = console.cols ∧ (oneRow 20).bufInfo.OnScreen (14, 30) ∧
      ¬ (oneRow 20).contentRect.Contains (14, 30) ∧
      (oneRow 20).bufInfo.color buf (14, 30) = .black ∧
      (oneRow 20).bufInfo.color buf' (14, 30) = .white ∧
      ¬ console.Confined (oneRow 20).bufInfo buf := by
  intro _
  have hv := valid_oneRow (show 20 ≤ 21 by decide)
  have hf := hv.fits (Nat.le_refl 3)
  have hlive : (oneRow 20).bufInfo.Live (oneRow 20).buf.size (14, 30) :=
    hv.live_of_onScreen (by decide)
  -- the content is black, and the character is drawn in its only cell
  obtain ⟨buf₀, hfill, hsize₀, hcolor₀⟩ := FrameBufferInfo.exists_color_of_paints hf.formatFits
    (paints_fillRect hf 6 30 8 16 .black) (rfl : (oneRow 20).buf.size = _)
  obtain ⟨buf, hdraw, hsize, hcolor⟩ := FrameBufferInfo.exists_color_of_paints hf.formatFits
    (paints_drawCharAt hf 6 30 'o' .white) hsize₀
  have hblack : (oneRow 20).bufInfo.color buf (14, 30) = .black := by
    rw [hcolor _ hlive, Layer.fill_apply, if_neg (by decide), hcolor₀ _ hlive, Layer.fill_apply,
      if_neg (by decide)]
    simp [FrameBufferInfo.color, FrameBufferInfo.decode, FrameBufferInfo.pixel, oneRow,
      FrameBufferInfo.offset, Color.black]
  -- the cursor is right of it
  let console : Console := ⟨(oneRow 20).contentRect, 1, 0, 1, 1, false⟩
  obtain ⟨buf', hpaint, hsize', hcolor'⟩ := FrameBufferInfo.exists_color_of_paints hf.formatFits
    (console.paints_cursor hf .white) hsize
  have hwhite : (oneRow 20).bufInfo.color buf' (14, 30) = .white := by
    rw [hcolor' _ hlive, Layer.fill_apply, if_pos (by decide)]
    rfl
  have hcursor : console.drawCursor buf (oneRow 20).bufInfo =
      some ({ console with cursorVisible := true }, buf') := by
    rw [drawCursor, if_neg (by decide)]
    exact Option.bind_eq_some_iff.2 ⟨buf', hpaint, rfl⟩
  refine ⟨⟨(oneRow 20).contentRect, 0, 0, 1, 1, false⟩, buf₀, console, buf, _, buf', ?_, ?_,
    hcursor, rfl, by decide, by decide, hblack, hwhite, fun hin => ?_⟩
  · rw [Console.new]
    change (fillRect (oneRow 20).buf (oneRow 20).bufInfo 6 30 8 16 .black).bind _ = _
    rw [hfill]
    rfl
  · rw [Console.writeChar, if_neg (by decide), if_neg (by decide), if_neg (by decide),
      if_neg (by decide), if_neg (by decide)]
    change (drawCharAt buf₀ (oneRow 20).bufInfo 6 30 'o' .white).bind _ = _
    rw [hdraw]
    rfl
  · have hsame := hin _ _ (.inl hcursor) (14, 30) (by decide) (by decide)
    rw [FrameBufferInfo.color, hsame] at hwhite
    exact absurd (hwhite.symm.trans hblack) (by decide)

end WmWindow

end ROs
