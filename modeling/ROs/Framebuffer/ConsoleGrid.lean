import ROs.Framebuffer.ConsoleSheet
import ROs.Framebuffer.Grid

/-!
# The console refines the character grid

`Console.Shows` relates a console and its buffer to a grid: every pixel of the content rectangle
is white where the grid has ink and black elsewhere, every cell from the position on is blank, and
a visible cursor is one white column on blank ground.  A hidden cursor apart, it is the relation
to the sheet with the characters of the grid (`Shows.prints`), and every text operation keeps it
(`Shows.writeChar`, `Shows.clear`).  So do drawing and erasing the cursor.

* `Console.refines_grid` : **after every run of text operations the pixels are those of the
  character grid.**
-/

namespace ROs

namespace Console

/-- The points of the cursor: the left edge of the cell at the position. -/
def CursorOn (self : Console) (p : ℕ × ℕ) : Prop :=
  p.1 = self.content.x + self.col * FONT_WIDTH ∧
    self.content.y + self.row * FONT_HEIGHT ≤ p.2 ∧
      p.2 < self.content.y + self.row * FONT_HEIGHT + FONT_HEIGHT

instance (self : Console) : DecidablePred self.CursorOn :=
  fun _ => inferInstanceAs (Decidable (_ ∧ _))

variable {info : FrameBufferInfo} {n : ℕ} {content : Rect}

variable [BasicFonts]

/-- The console and its buffer show the grid. -/
structure Shows (info : FrameBufferInfo) (n : ℕ) (content : Rect) (console : Console) (buf : Buf)
    (g : Grid (content.height / FONT_HEIGHT) (content.width / FONT_WIDTH)) : Prop where
  size_eq : buf.size = n
  content_eq : console.content = content
  rows_eq : console.rows = content.height / FONT_HEIGHT
  cols_eq : console.cols = content.width / FONT_WIDTH
  row_eq : console.row = g.row
  col_eq : console.col = g.col
  blankFrom : g.BlankFrom
  /-- White where the grid has ink or the cursor stands, black elsewhere: also in the strips that
  are too narrow for a cell. -/
  color_eq : ∀ p, content.Contains p → info.color buf p =
    if console.cursorVisible = true ∧ console.CursorOn p then .white else g.colorAt content p

variable {console : Console} {buf : Buf} {rows cols : ℕ}

/-! ### Each operation -/

variable {g : Grid (content.height / FONT_HEIGHT) (content.width / FONT_WIDTH)}

/-- What an invisible cursor leaves of the colours. -/
theorem Shows.color_of_hidden (h : Shows info n content console buf g)
    (hv : console.cursorVisible = false) {p : ℕ × ℕ} (hp : content.Contains p) :
    info.color buf p = g.colorAt content p := by
  rw [h.color_eq p hp, if_neg (by simp [hv])]

/-- With a hidden cursor, the console prints the characters of the grid. -/
theorem Shows.prints (h : Shows info n content console buf g) (hv : console.cursorVisible = false) :
    Prints info n content console buf g.toSheet :=
  ⟨h.size_eq, h.content_eq, h.rows_eq, h.cols_eq, h.row_eq, h.col_eq,
    fun p hp => by rw [h.color_of_hidden hv hp, Grid.colorAt_toSheet]⟩

theorem Prints.shows (h : Prints info n content console buf g.toSheet) (hb : g.BlankFrom)
    (hv : console.cursorVisible = false) : Shows info n content console buf g :=
  ⟨h.size_eq, h.content_eq, h.rows_eq, h.cols_eq, h.row_eq, h.col_eq, hb,
    fun p hp => by rw [if_neg (by simp [hv]), h.color_eq p hp, Grid.colorAt_toSheet]⟩

theorem exists_new (h : Placed info n content) (hrows : 0 < content.height / FONT_HEIGHT)
    (hcols : 0 < content.width / FONT_WIDTH) (hbuf : buf.size = n) :
    ∃ console buf', new buf info content = some (console, buf') ∧ console.cursorVisible = false ∧
      Shows info n content console buf' (Grid.blank hrows hcols) := by
  obtain ⟨console, buf', hnew, hv, h'⟩ := exists_new_prints h hrows hcols hbuf
  exact ⟨console, buf', hnew, hv,
    (Grid.toSheet_blank hrows hcols ▸ h').shows (Grid.blankFrom_blank _ _) hv⟩

theorem Shows.clear (h : Shows info n content console buf g) (hP : Placed info n content)
    (hv : console.cursorVisible = false) :
    ∃ console' buf', console.clear buf info = some (console', buf') ∧ console'.cursorVisible = false ∧
      Shows info n content console' buf' g.clear := by
  obtain ⟨buf', hfill, hsize, hcolor⟩ := exists_fillRect_content hP h.size_eq
  refine ⟨{ console with col := 0, row := 0 }, buf', ?_, hv, hsize, h.content_eq, h.rows_eq,
    h.cols_eq, rfl, rfl, Grid.blankFrom_blank _ _, fun p hp => ?_⟩
  · rw [Console.clear, h.content_eq, hfill]
    rfl
  · rw [hcolor p hp, if_neg (by simp [hv])]
    rfl

/-- **A text written is a text of the grid.** -/
theorem Shows.writeStr (h : Shows info n content console buf g) (hP : Placed info n content)
    (hv : console.cursorVisible = false) {cs : List Char} (hcs : '\r' ∉ cs) :
    ∃ console' buf', console.writeStr buf info cs = some (console', buf') ∧
      console'.cursorVisible = false ∧
        Shows info n content console' buf' (cs.foldl Grid.writeChar g) := by
  obtain ⟨hblank, hsheet⟩ := Grid.toSheet_foldl_writeChar h.blankFrom hcs
  obtain ⟨console', buf', hw, hv', h'⟩ := (h.prints hv).run hP cs
  rw [← hsheet] at h'
  exact ⟨console', buf', hw, hv'.trans hv, h'.shows hblank (hv'.trans hv)⟩

theorem Shows.writeChar (h : Shows info n content console buf g) (hP : Placed info n content)
    (hv : console.cursorVisible = false) {c : Char} (hc : c ≠ '\r') :
    ∃ console' buf', console.writeChar buf info c = some (console', buf') ∧
      console'.cursorVisible = false ∧ Shows info n content console' buf' (g.writeChar c) := by
  obtain ⟨console', buf', hw, hv', h'⟩ := (h.prints hv).writeChar hP c
  rw [← Grid.toSheet_writeChar h.blankFrom hc] at h'
  exact ⟨console', buf', hw, hv'.trans hv, h'.shows (h.blankFrom.writeChar c) (hv'.trans hv)⟩

/-- The points of the cursor are blank ground. -/
theorem Shows.colorAt_of_cursorOn (h : Shows info n content console buf g) {p : ℕ × ℕ}
    (hp : content.Contains p) (hon : console.CursorOn p) : g.colorAt content p = .black := by
  obtain ⟨hx, hy, hy'⟩ := hon
  rw [h.content_eq, h.row_eq] at hy hy'
  rw [h.content_eq, h.col_eq] at hx
  have hcell : cellOf content p = (g.row, g.col) := (cellOf_eq hp).2
    ⟨Nat.le_of_eq hx.symm, by rw [hx]; exact Nat.lt_add_of_pos_right (Nat.succ_pos 7), hy, hy'⟩
  have hnone : g.cell g.row g.col = none := h.blankFrom _ _ (.inr ⟨rfl, Nat.le_refl _⟩)
  simp only [Grid.colorAt, hcell, hnone]

omit [BasicFonts] in
/-- The loop of the cursor, in either colour. -/
theorem paints_cursor (console : Console) (hf : info.Fits) (c : Color) :
    (info.surface n).Paints (Layer.fill console.CursorOn c) fun buf =>
      (range 0 FONT_HEIGHT).foldlM (fun buf dy => putPixel buf info
        (console.content.x + console.col * FONT_WIDTH)
        (console.content.y + console.row * FONT_HEIGHT + dy) c) buf := by
  refine Surface.Paints.foldlM_fill (fun dy _ => FrameBufferInfo.paints_putPixel hf (_, _) c)
    fun p _ => ?_
  simp only [mem_range, CursorOn, Prod.ext_iff]
  constructor
  · rintro ⟨hx, hy, hy'⟩
    exact ⟨p.2 - (console.content.y + console.row * FONT_HEIGHT), by omega, hx, by omega⟩
  · rintro ⟨dy, hdy, hx, hy⟩
    exact ⟨hx, by omega, by omega⟩

theorem Shows.drawCursor (h : Shows info n content console buf g) (hP : Placed info n content) :
    ∃ console' buf', console.drawCursor buf info = some (console', buf') ∧
      console'.cursorVisible = true ∧ Shows info n content console' buf' g := by
  unfold Console.drawCursor
  by_cases hv : console.cursorVisible = true
  · rw [if_pos hv]
    exact ⟨console, buf, rfl, hv, h⟩
  · obtain ⟨buf', hdraw, hsize, hcolor⟩ := FrameBufferInfo.exists_color_of_paints
      hP.fits.formatFits (console.paints_cursor hP.fits .white) h.size_eq
    refine ⟨{ console with cursorVisible := true }, buf', ?_, rfl, hsize, h.content_eq, h.rows_eq,
      h.cols_eq, h.row_eq, h.col_eq, h.blankFrom, fun p hp => ?_⟩
    · rw [if_neg hv]
      simp only [hdraw, Option.bind_eq_bind, Option.bind_some]
    · rw [hcolor p (hP.live hp), Layer.fill_apply, h.color_of_hidden (by simpa using hv) hp]
      by_cases hon : console.CursorOn p
      · rw [if_pos hon, if_pos ⟨rfl, hon⟩]
        exact FrameBufferInfo.shown_white
      · rw [if_neg hon, if_neg (fun hc => hon hc.2)]
        rfl

theorem Shows.eraseCursor (h : Shows info n content console buf g) (hP : Placed info n content) :
    ∃ console' buf', console.eraseCursor buf info = some (console', buf') ∧
      console'.cursorVisible = false ∧ Shows info n content console' buf' g := by
  unfold Console.eraseCursor
  by_cases hv : console.cursorVisible = true
  · obtain ⟨buf', hdraw, hsize, hcolor⟩ := FrameBufferInfo.exists_color_of_paints
      hP.fits.formatFits (console.paints_cursor hP.fits .black) h.size_eq
    refine ⟨{ console with cursorVisible := false }, buf', ?_, rfl, hsize, h.content_eq, h.rows_eq,
      h.cols_eq, h.row_eq, h.col_eq, h.blankFrom, fun p hp => ?_⟩
    · rw [if_pos hv]
      simp only [hdraw, Option.bind_eq_bind, Option.bind_some]
    · rw [hcolor p (hP.live hp), Layer.fill_apply, h.color_eq p hp]
      by_cases hon : console.CursorOn p
      · simp [hon, h.colorAt_of_cursorOn hp hon]
      · simp [hon]
  · rw [if_neg hv]
    exact ⟨console, buf, rfl, by simpa using hv, h⟩

/-! ### Runs -/

/-- **Every operation of a disciplined run keeps the console and the grid together**, without a
panic. -/
theorem Shows.perform (h : Shows info n content console buf g) (hP : Placed info n content)
    (op : Op) {ops : List Op} (hops : Disciplined console.cursorVisible (op :: ops)) :
    ∃ console' buf', Console.perform info (console, buf) op = some (console', buf') ∧
      console'.cursorVisible = op.showsCursor ∧
        Shows info n content console' buf' (g.perform op) := by
  cases op with
  | writeChar c => exact h.writeChar hP hops.1 hops.2.1
  | writeStr s => exact h.writeStr hP hops.1 hops.2.1
  | clear => exact h.clear hP hops.1
  | drawCursor => exact h.drawCursor hP
  | eraseCursor => exact h.eraseCursor hP

theorem Shows.run (h : Shows info n content console buf g) (hP : Placed info n content)
    {ops : List Op} (hops : Disciplined console.cursorVisible ops) :
    ∃ console' buf', ops.foldlM (Console.perform info) (console, buf) = some (console', buf') ∧
      console'.cursorVisible = ops.foldl (fun _ op => op.showsCursor) console.cursorVisible ∧
      Shows info n content console' buf' (ops.foldl Grid.perform g) := by
  induction ops generalizing console buf g with
  | nil => exact ⟨console, buf, rfl, rfl, h⟩
  | cons op ops ih =>
    obtain ⟨console₁, buf₁, hperform, hv₁, h₁⟩ := h.perform hP op hops
    obtain ⟨console', buf', hrun, hv', h'⟩ := ih h₁ (hv₁ ▸ hops.tail)
    refine ⟨console', buf', ?_, ?_, h'⟩
    · rw [List.foldlM_cons, hperform]
      exact hrun
    · rw [hv', hv₁, List.foldl_cons]

/-- **The pixels of a console are those of a character grid**, after every run of text operations
that ends in a text operation or in erasing the cursor. -/
theorem refines_grid (hP : Placed info n content) (hrows : 0 < content.height / FONT_HEIGHT)
    (hcols : 0 < content.width / FONT_WIDTH) (hbuf : buf.size = n) {ops : List Op}
    (hops : Disciplined false ops) :
    ∃ console₀ buf₀ console' buf', new buf info content = some (console₀, buf₀) ∧
      ops.foldlM (perform info) (console₀, buf₀) = some (console', buf') ∧
      let g := ops.foldl Grid.perform (Grid.blank hrows hcols)
      console'.row = g.row ∧ console'.col = g.col ∧
        (ops.getLast? ≠ some .drawCursor → ∀ p, content.Contains p →
          readPixel buf' info p.1 p.2 = some (g.colorAt content p)) := by
  obtain ⟨console₀, buf₀, hnew, hv₀, h₀⟩ := exists_new hP hrows hcols hbuf
  obtain ⟨console', buf', hrun, hv, h⟩ := h₀.run hP (hv₀ ▸ hops)
  refine ⟨console₀, buf₀, console', buf', hnew, hrun, h.row_eq, h.col_eq, fun hne p hp => ?_⟩
  rw [FrameBufferInfo.readPixel_of_live hP.fits (h.size_eq ▸ hP.live hp),
    h.color_of_hidden (hv.trans (Op.foldl_showsCursor_of_getLast? hne hv₀)) hp]

omit [BasicFonts] in
/-- One cell on a screen of its size: the second character scrolls the first one away. -/
theorem refines_grid_oneCell :
    let _ := BasicFonts.sample
    let info : FrameBufferInfo := ⟨8, 16, .rgb, 3, 8⟩
    ∃ console₀ buf₀ console' buf', new (Array.replicate 384 7) info ⟨0, 0, 8, 16⟩ =
        some (console₀, buf₀) ∧
      [Op.writeChar 'r', .writeChar 'o', .drawCursor, .eraseCursor].foldlM (perform info)
        (console₀, buf₀) = some (console', buf') ∧
      (console'.row, console'.col) = (0, 1) ∧ readPixel buf' info 1 4 = some .white ∧
        readPixel buf' info 0 4 = some .black := by
  intro _ info
  have hP : Placed info 384 ⟨0, 0, 8, 16⟩ :=
    ⟨.of_le (by decide) (Nat.le_refl 3) (by decide) (by decide) (by decide), by decide, by decide, fun p hp => by
      obtain ⟨-, hx, -, hy⟩ := hp
      simp only [FrameBufferInfo.offset, info] at hx hy ⊢
      omega⟩
  obtain ⟨console₀, buf₀, console', buf', hnew, hrun, hrow, hcol, hpix⟩ := refines_grid hP
    (by decide) (by decide) (show (Array.replicate 384 7 : Buf).size = 384 by simp)
    (show Disciplined false [.writeChar 'r', .writeChar 'o', .drawCursor, .eraseCursor] from
      ⟨rfl, by decide, rfl, by decide, trivial⟩)
  refine ⟨console₀, buf₀, console', buf', hnew, hrun, ?_, ?_, ?_⟩
  · rw [hrow, hcol]
    decide
  · rw [hpix (by decide) (1, 4) (by decide)]
    decide
  · rw [hpix (by decide) (0, 4) (by decide)]
    decide

end Console

end ROs
