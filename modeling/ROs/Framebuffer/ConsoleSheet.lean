import ROs.Framebuffer.Sheet

/-!
# The console refines the overprinted sheet

`Console.Prints` relates a console and its buffer to a sheet: every pixel of the content rectangle
is white where a character of its cell has ink, and black elsewhere.  Every character that is
written keeps the relation, without a panic (`Prints.writeChar`, `Prints.run`); the pixels of
scrolling are those of a copy and a fill (`exists_scrollUp`).

* `Console.printed_cell_iff` : **the cell a character is printed in shows this character alone,
  exactly if the ink of what was left in the cell lies within its own.**
-/

namespace ROs

namespace Console

/-- The content rectangle lies on the screen, and a buffer of `n` bytes holds its pixels. -/
structure Placed (info : FrameBufferInfo) (n : ℕ) (content : Rect) : Prop where
  fits : info.Fits
  right : content.x + content.width ≤ info.width
  bottom : content.y + content.height ≤ info.height
  holds : ∀ p, content.Contains p → info.offset p + info.bytesPerPixel ≤ n

variable {info : FrameBufferInfo} {n : ℕ} {content : Rect}

theorem Placed.live (h : Placed info n content) {p : ℕ × ℕ} (hp : content.Contains p) :
    info.Live n p := by
  have hright := h.right
  have hbottom := h.bottom
  obtain ⟨hx, hx', hy, hy'⟩ := id hp
  exact ⟨⟨by omega, by omega⟩, h.holds p hp⟩

/-- `copy_within` of one line of pixels. -/
theorem exists_copyWithin_line (h : Placed info n content) {buf : Buf} (hbuf : buf.size = n)
    (srcY dstY : ℕ) (hsrc : content.y ≤ srcY ∧ srcY < content.y + content.height)
    (hdst : content.y ≤ dstY ∧ dstY < content.y + content.height) (hwidth : 0 < content.width) :
    info.offset (content.x, srcY) + content.width * info.bytesPerPixel ≤ n ∧
    info.offset (content.x, dstY) + content.width * info.bytesPerPixel ≤ n ∧
    ∃ buf', buf.copyWithin (info.offset (content.x, srcY))
        (info.offset (content.x, srcY) + content.width * info.bytesPerPixel)
        (info.offset (content.x, dstY)) = some buf' ∧ buf'.size = n ∧
      ∀ p, content.Contains p → info.pixel buf' p =
        if p.2 = dstY then info.pixel buf (p.1, srcY) else info.pixel buf p := by
  have hlast : ∀ y, content.y ≤ y → y < content.y + content.height →
      info.offset (content.x, y) + content.width * info.bytesPerPixel ≤ n := fun y hy hy' =>
    (h.live (p := (content.x + (content.width - 1), y))
      ⟨by dsimp only; omega, by dsimp only; omega, hy, hy'⟩).row hwidth
  have hs := hlast srcY hsrc.1 hsrc.2
  have hd := hlast dstY hdst.1 hdst.2
  obtain ⟨buf', hcopy, hw⟩ := Buf.exists_copyFromSlice buf
    (buf.extract (info.offset (content.x, srcY))
      (info.offset (content.x, srcY) + content.width * info.bytesPerPixel))
    (a := info.offset (content.x, dstY))
    (b := info.offset (content.x, dstY) + content.width * info.bytesPerPixel) (by omega) (by omega)
    (by rw [Array.size_extract]; omega)
  refine ⟨hs, hd, buf', ?_, by rw [hw.size_eq, hbuf], fun p hp => ?_⟩
  · rw [Buf.copyWithin, Buf.slice_of_le (by omega) (by omega)]
    simpa using hcopy
  · obtain ⟨hx, hx', -, -⟩ := id hp
    rw [FrameBufferInfo.pixel_of_copied_row h.fits.width_le_stride rfl h.right (h.live hp).1
      (by omega) hw, Nat.add_sub_cancel' hx]
    by_cases hrow : p.2 = dstY
    · rw [if_pos ⟨hrow, hx, hx'⟩, if_pos hrow]
    · rw [if_neg (fun hin => hrow hin.1), if_neg hrow]

/-- **The copying loop moves every line up by one text row.** -/
theorem exists_copyLines (h : Placed info n content) (hwidth : 0 < content.width) {k m : ℕ}
    (hheight : content.height = k + m + FONT_HEIGHT) {buf : Buf} (hbuf : buf.size = n) :
    ∃ buf', copyLines content info buf (List.range' k m) = some buf' ∧ buf'.size = n ∧
      ∀ p, content.Contains p → info.pixel buf' p =
        if content.y + k ≤ p.2 ∧ p.2 < content.y + k + m then info.pixel buf (p.1, p.2 + FONT_HEIGHT)
        else info.pixel buf p := by
  have hfont : FONT_HEIGHT = 16 := rfl
  induction m generalizing k buf with
  | zero => exact ⟨buf, rfl, hbuf, fun p _ => by rw [if_neg (by omega)]⟩
  | succ m ih =>
    obtain ⟨hs, hd, buf₁, hcopy, hsize, hpix⟩ := exists_copyWithin_line h hbuf
      (content.y + k + FONT_HEIGHT) (content.y + k) (by omega) (by omega) hwidth
    obtain ⟨buf', hrest, hsize', hpix'⟩ := ih (k := k + 1) (by omega) hsize
    simp only [FrameBufferInfo.offset] at hs hd hcopy
    refine ⟨buf', ?_, hsize', fun p hp => ?_⟩
    · rw [List.range'_succ, copyLines]
      simp only
      rw [if_neg (by omega), if_pos (by omega), hcopy]
      exact hrest
    · obtain ⟨hx, hx', hy, hy'⟩ := id hp
      rw [hpix' p hp]
      split
      · rename_i hin
        rw [if_pos (by omega), hpix (p.1, p.2 + FONT_HEIGHT)
          ⟨hx, hx', by dsimp only; omega, by dsimp only; omega⟩,
          if_neg (by dsimp only; omega)]
      · rename_i hout
        rw [hpix p hp]
        by_cases hrow : p.2 = content.y + k
        · rw [if_pos hrow, if_pos (by omega), hrow]
        · rw [if_neg hrow, if_neg (by omega)]

/-- Blanking the whole content rectangle. -/
theorem exists_fillRect_content {buf : Buf} (h : Placed info n content)
    (hbuf : buf.size = n) :
    ∃ buf', fillRect buf info content.x content.y content.width content.height .black = some buf' ∧
      buf'.size = n ∧ ∀ p, content.Contains p → info.color buf' p = .black := by
  obtain ⟨buf', hfill, hsize, hcolor⟩ := FrameBufferInfo.exists_color_of_paints h.fits.formatFits
    (paints_fillRect h.fits content.x content.y content.width content.height .black) hbuf
  refine ⟨buf', hfill, hsize, fun p hp => ?_⟩
  rw [hcolor p (h.live hp), Layer.fill_apply, if_pos hp]
  exact FrameBufferInfo.shown_black

/-- **The pixels of scrolling**: every line moves up by one text row, and the last one is blanked. -/
theorem exists_scrollUp (console : Console) {buf : Buf} (hP : Placed info n content)
    (hbuf : buf.size = n) (hwidth : 0 < content.width) (hheight : FONT_HEIGHT ≤ content.height)
    (hcontent : console.content = content) (hrows : console.rows ≠ 0) :
    ∃ buf', console.scrollUp buf info = some ({ console with row := console.rows - 1 }, buf') ∧
      buf'.size = n ∧ ∀ p, content.Contains p → info.color buf' p =
        if p.2 + FONT_HEIGHT < content.y + content.height then info.color buf (p.1, p.2 + FONT_HEIGHT)
        else .black := by
  have hfont : FONT_HEIGHT = 16 := rfl
  obtain ⟨buf₁, hcopy, hsize₁, hpix⟩ := exists_copyLines hP hwidth
    (show content.height = 0 + (content.height - FONT_HEIGHT) + FONT_HEIGHT by omega) hbuf
  obtain ⟨buf', hfill, hsize, hcolor⟩ := FrameBufferInfo.exists_color_of_paints hP.fits.formatFits
    (paints_fillRect hP.fits content.x (content.y + content.height - FONT_HEIGHT) content.width
      FONT_HEIGHT .black) hsize₁
  refine ⟨buf', ?_, hsize, fun p hp => ?_⟩
  · rw [scrollUp, if_neg hrows, hcontent]
    simp only [range, Nat.sub_zero]
    rw [hcopy]
    simp only [Option.bind_eq_bind, Option.bind_some]
    rw [hfill]
    rfl
  · obtain ⟨hx, hx', hy, hy'⟩ := id hp
    rw [hcolor p (hP.live hp), Layer.fill_apply]
    by_cases hup : p.2 + FONT_HEIGHT < content.y + content.height
    · rw [if_pos hup, if_neg fun hin => absurd hin.2.2.1 (by dsimp only; omega)]
      change info.color buf₁ p = info.color buf (p.1, p.2 + FONT_HEIGHT)
      rw [FrameBufferInfo.color, hpix p hp, if_pos (by omega)]
      rfl
    · rw [if_neg hup, if_pos ⟨hx, hx', by dsimp only; omega, by dsimp only; omega⟩]
      exact FrameBufferInfo.shown_black

/-- Putting one colour on the cell at `(col, row)`. -/
theorem paints_clearChar (console : Console) (hf : info.Fits) (col row : ℕ) :
    (info.surface n).Paints (Layer.fill (cellRect console.content row col).Contains .black)
      fun buf => console.clearChar buf info col row := by
  refine Surface.Paints.foldlM_fill
    (s := fun dy p => p.2 = console.content.y + row * FONT_HEIGHT + dy ∧
      console.content.x + col * FONT_WIDTH ≤ p.1 ∧
        p.1 < console.content.x + col * FONT_WIDTH + FONT_WIDTH)
    (fun dy _ => Surface.Paints.foldlM_fill
      (s := fun dx p => p = (console.content.x + col * FONT_WIDTH + dx,
        console.content.y + row * FONT_HEIGHT + dy))
      (fun dx _ => FrameBufferInfo.paints_putPixel hf _ .black) fun p _ => ?_) fun p _ => ?_
  · simp only [mem_range, Prod.ext_iff]
    constructor
    · rintro ⟨hy, hx, hx'⟩
      exact ⟨p.1 - (console.content.x + col * FONT_WIDTH), by omega, by omega, hy⟩
    · rintro ⟨dx, hdx, hx, hy⟩
      exact ⟨hy, by omega, by omega⟩
  · simp only [mem_range, cellRect, Rect.Contains]
    constructor
    · rintro ⟨hx, hx', hy, hy'⟩
      exact ⟨p.2 - (console.content.y + row * FONT_HEIGHT), by omega, by omega, hx, hx'⟩
    · rintro ⟨dy, hdy, hy, hx, hx'⟩
      exact ⟨hx, hx', by omega, by omega⟩

variable [BasicFonts]

/-- The console and its buffer show the sheet. -/
structure Prints (info : FrameBufferInfo) (n : ℕ) (content : Rect) (console : Console) (buf : Buf)
    (s : Sheet (content.height / FONT_HEIGHT) (content.width / FONT_WIDTH)) : Prop where
  size_eq : buf.size = n
  content_eq : console.content = content
  rows_eq : console.rows = content.height / FONT_HEIGHT
  cols_eq : console.cols = content.width / FONT_WIDTH
  row_eq : console.row = s.row
  col_eq : console.col = s.col
  /-- White where the cell has ink, black elsewhere: also in the strips that are too narrow for a
  cell. -/
  color_eq : ∀ p, content.Contains p → info.color buf p = s.colorAt content p

/-- A glyph moves with its origin. -/
theorem glyphOn_down {x0 y0 k : ℕ} {ch : Char} {p : ℕ × ℕ} :
    GlyphOn x0 (y0 + k) ch (p.1, p.2 + k) ↔ GlyphOn x0 y0 ch p := by
  simp only [GlyphOn, show p.2 + k - (y0 + k) = p.2 - y0 by omega]
  refine and_congr_right fun _ => and_congr_right fun _ => ?_
  rw [← and_assoc, ← and_assoc]
  exact and_congr_left fun _ => by omega

variable {console : Console} {buf : Buf} {rows cols : ℕ} {s s' : Sheet rows cols}

theorem colorAt_of_nil {p : ℕ × ℕ} (h : s.cell (cellOf content p).1 (cellOf content p).2 = []) :
    s.colorAt content p = .black := by
  simp [Sheet.colorAt, InkOn, h]

theorem colorAt_congr {p : ℕ × ℕ} (h : s'.cell (cellOf content p).1 (cellOf content p).2 =
    s.cell (cellOf content p).1 (cellOf content p).2) :
    s'.colorAt content p = s.colorAt content p := by
  simp only [Sheet.colorAt, h]

/-- One row up, a sheet shows what it showed. -/
theorem colorAt_down {p : ℕ × ℕ} (hp : content.y ≤ p.2) (h : ∀ i j, s'.cell i j = s.cell (i + 1) j) :
    s'.colorAt content p = s.colorAt content (p.1, p.2 + FONT_HEIGHT) := by
  have hcellOf : cellOf content (p.1, p.2 + FONT_HEIGHT) =
      ((cellOf content p).1 + 1, (cellOf content p).2) := by
    simp only [cellOf, Prod.mk.injEq, and_true, FONT_HEIGHT, FONT_SCALE_Y]
    omega
  have hdown : content.y + ((cellOf content p).1 + 1) * FONT_HEIGHT =
      content.y + (cellOf content p).1 * FONT_HEIGHT + FONT_HEIGHT := by
    rw [Nat.add_assoc, ← Nat.succ_mul]
  simp only [Sheet.colorAt, hcellOf, h, hdown, InkOn, glyphOn_down]

theorem exists_new_prints (h : Placed info n content) (hrows : 0 < content.height / FONT_HEIGHT)
    (hcols : 0 < content.width / FONT_WIDTH) (hbuf : buf.size = n) :
    ∃ console buf', new buf info content = some (console, buf') ∧ console.cursorVisible = false ∧
      Prints info n content console buf' (Sheet.blank hrows hcols) := by
  obtain ⟨buf', hfill, hsize, hcolor⟩ := exists_fillRect_content h hbuf
  refine ⟨_, buf', by rw [new, hfill]; rfl, rfl, hsize, rfl, rfl, rfl, rfl, rfl, fun p hp => ?_⟩
  rw [hcolor p hp, colorAt_of_nil rfl]

/-! ### Each character -/

variable {s : Sheet (content.height / FONT_HEIGHT) (content.width / FONT_WIDTH)} {c : Char}

theorem Prints.not_empty (h : Prints info n content console buf s) :
    ¬ (console.rows = 0 ∨ console.cols = 0) := by
  have hrows : 0 < content.height / FONT_HEIGHT := Nat.zero_lt_of_lt s.row_lt
  have hcols := s.cols_pos
  rw [h.rows_eq, h.cols_eq]
  omega

theorem Prints.nextLine (h : Prints info n content console buf s) (hP : Placed info n content) :
    ∃ console' buf', console.nextLine buf info = some (console', buf') ∧
      console'.cursorVisible = console.cursorVisible ∧
        Prints info n content console' buf' s.newline := by
  rw [Console.nextLine]
  by_cases hrow : s.row + 1 < content.height / FONT_HEIGHT
  · refine ⟨{ console with col := 0, row := console.row + 1 }, buf, ?_, rfl, h.size_eq,
      h.content_eq, h.rows_eq, h.cols_eq, ?_, ?_, fun p hp => ?_⟩
    · rw [if_neg]
      rw [h.row_eq, h.rows_eq]
      exact Nat.not_le.2 hrow
    · simp only [Sheet.newline, dif_pos hrow, h.row_eq]
    · rw [Sheet.newline_col]
    · rw [h.color_eq p hp]
      refine (colorAt_congr ?_).symm
      rw [Sheet.newline, dif_pos hrow]
  · -- from the last row, scrolling moves the sheet up by one row
    have hfont : FONT_HEIGHT = 16 := rfl
    have hrowlt : s.row < content.height / 16 := s.row_lt
    have hlast : ¬ s.row + 1 < content.height / 16 := hrow
    have hcols : 0 < content.width / 8 := s.cols_pos
    have hrows : console.rows = content.height / 16 := h.rows_eq
    have hcell : ∀ i j, s.newline.cell i j = s.cell (i + 1) j := by
      intro i j
      rw [Sheet.newline, dif_neg hrow]
    obtain ⟨buf', hscroll, hsize, hcolor⟩ := exists_scrollUp
      { console with col := 0, row := console.row + 1 } hP h.size_eq (by omega)
      (by omega) h.content_eq (by dsimp only; omega)
    refine ⟨{ console with col := 0, row := console.rows - 1 }, buf', ?_, rfl, hsize, h.content_eq,
      h.rows_eq, h.cols_eq, ?_, ?_, fun p hp => ?_⟩
    · have hge : console.row + 1 ≥ console.rows := by
        rw [h.row_eq, h.rows_eq]
        exact Nat.not_lt.1 hrow
      rw [if_pos hge, hscroll]
    · simp only [Sheet.newline, dif_neg hrow]
      omega
    · rw [Sheet.newline_col]
    · rw [hcolor p hp]
      obtain ⟨hx, hx', hy, hy'⟩ := id hp
      by_cases hup : p.2 + FONT_HEIGHT < content.y + content.height
      · have hdown : content.Contains (p.1, p.2 + FONT_HEIGHT) :=
          ⟨hx, hx', Nat.le_trans hy (Nat.le_add_right _ _), hup⟩
        rw [if_pos hup, h.color_eq _ hdown, colorAt_down hy hcell]
      · -- the blanked line lies below the last row
        rw [if_neg hup, colorAt_of_nil]
        rw [hcell]
        refine s.cell_eq_nil _ _ fun hlt => ?_
        have hlt' : (p.2 - content.y) / 16 + 1 < content.height / 16 := hlt.1
        omega

theorem Prints.carriageReturn (h : Prints info n content console buf s) :
    Prints info n content { console with col := 0 } buf s.carriageReturn :=
  ⟨h.size_eq, h.content_eq, h.rows_eq, h.cols_eq, h.row_eq, rfl, h.color_eq⟩

theorem Prints.backspace (h : Prints info n content console buf s) (hP : Placed info n content) :
    ∃ console' buf', console.writeChar buf info '\x08' = some (console', buf') ∧
      console'.cursorVisible = console.cursorVisible ∧
        Prints info n content console' buf' s.backspace := by
  rw [Console.writeChar, if_neg h.not_empty, if_neg (by decide), if_neg (by decide), if_pos rfl]
  by_cases hcol : 0 < s.col
  · obtain ⟨buf', hclear, hsize, hcolor⟩ := FrameBufferInfo.exists_color_of_paints
      hP.fits.formatFits (paints_clearChar { console with col := console.col - 1 }
        hP.fits (console.col - 1) console.row) h.size_eq
    refine ⟨{ console with col := console.col - 1 }, buf', ?_, rfl, hsize, h.content_eq, h.rows_eq,
      h.cols_eq, h.row_eq, ?_, fun p hp => ?_⟩
    · rw [if_pos (by rw [h.col_eq]; exact hcol)]
      dsimp only
      rw [hclear]
      rfl
    · exact congrArg (· - 1) h.col_eq
    · rw [hcolor p (hP.live hp), Layer.fill_apply, h.color_eq p hp]
      simp only [h.content_eq, h.col_eq, h.row_eq]
      split
      · rename_i hin
        have hcell := (cellOf_eq hp).2 hin
        rw [colorAt_of_nil (s := s.backspace) (by rw [hcell]; simp [Sheet.backspace, hcol])]
        exact FrameBufferInfo.shown_black
      · rename_i hout
        refine (colorAt_congr ?_).symm
        simp only [Sheet.backspace]
        rw [if_neg]
        rintro ⟨-, hi, hj⟩
        exact hout ((cellOf_eq hp).1 (Prod.ext hi hj))
  · have hsame : s.backspace = s := by
      refine Sheet.ext ?_ rfl ?_
      · funext i j
        exact if_neg fun hij => hcol hij.1
      · simp only [Sheet.backspace]
        omega
    rw [if_neg (by rw [h.col_eq]; exact hcol), hsame]
    exact ⟨console, buf, rfl, rfl, h⟩

/-- Drawing a character at the position of a sheet with room: its ink is added to the cell. -/
theorem Prints.drawChar (h : Prints info n content console buf s) (hP : Placed info n content)
    (hcol : s.col < content.width / FONT_WIDTH) (c : Char) :
    ∃ buf', console.drawChar buf info c console.col console.row = some buf' ∧
      Prints info n content { console with col := console.col + 1 } buf' (s.put c) := by
  have hwrap : s.wrap = s := if_pos hcol
  obtain ⟨buf', hdraw, hsize, hcolor⟩ := FrameBufferInfo.exists_color_of_paints hP.fits.formatFits
    (paints_drawCharAt hP.fits (console.content.x + console.col * FONT_WIDTH)
      (console.content.y + console.row * FONT_HEIGHT) c .white) h.size_eq
  refine ⟨buf', hdraw, hsize, h.content_eq, h.rows_eq, h.cols_eq, ?_, ?_, fun p hp => ?_⟩
  · simp only [Sheet.put, hwrap, h.row_eq]
  · simp only [Sheet.put, hwrap, h.col_eq]
  · rw [hcolor p (hP.live hp), Layer.fill_apply, h.color_eq p hp]
    simp only [h.content_eq, h.col_eq, h.row_eq]
    by_cases hcell : cellOf content p = (s.row, s.col)
    · have hput : (s.put c).cell s.row s.col = s.cell s.row s.col ++ [c] := by
        simp [Sheet.put, hwrap]
      unfold Sheet.colorAt
      rw [hcell]
      simp only [hput]
      by_cases hon : GlyphOn (content.x + s.col * FONT_WIDTH) (content.y + s.row * FONT_HEIGHT) c p
      · rw [if_pos hon, if_pos (inkOn_concat.2 (.inr hon))]
        exact FrameBufferInfo.shown_white
      · rw [if_neg hon]
        exact if_congr (by rw [inkOn_concat, or_iff_left hon]) rfl rfl
    · have hoff : ¬ GlyphOn (content.x + s.col * FONT_WIDTH) (content.y + s.row * FONT_HEIGHT)
          c p := by
        rintro ⟨hx, hx', hy, hy', -⟩
        exact hcell ((cellOf_eq hp).2 ⟨hx, hx', hy, hy'⟩)
      rw [if_neg hoff]
      refine (colorAt_congr ?_).symm
      simp only [Sheet.put, hwrap]
      rw [if_neg fun hij => hcell (Prod.ext hij.1 hij.2)]

theorem Prints.put (h : Prints info n content console buf s) (hP : Placed info n content)
    (hc : Printable c) :
    ∃ console' buf', console.writeChar buf info c = some (console', buf') ∧
      console'.cursorVisible = console.cursorVisible ∧
        Prints info n content console' buf' (s.put c) := by
  rw [Console.writeChar, if_neg h.not_empty, if_neg hc.1, if_neg hc.2.1, if_neg hc.2.2]
  by_cases hcol : s.col < content.width / FONT_WIDTH
  · obtain ⟨buf', hdraw, h'⟩ := h.drawChar hP hcol c
    refine ⟨{ console with col := console.col + 1 }, buf', ?_, rfl, h'⟩
    rw [if_neg (by rw [h.col_eq, h.cols_eq]; exact Nat.not_le.2 hcol)]
    simp only [Option.bind_eq_bind, Option.bind_some, hdraw]
  · obtain ⟨console₁, buf₁, hnext, hv₁, h₁⟩ := h.nextLine hP
    obtain ⟨buf', hdraw, h'⟩ := h₁.drawChar hP (by rw [s.newline_col]; exact s.cols_pos) c
    have hput : s.newline.put c = s.put c := by
      have hwrap : s.newline.wrap = s.wrap := by
        rw [Sheet.wrap, if_pos (by rw [s.newline_col]; exact s.cols_pos), Sheet.wrap, if_neg hcol]
      simp only [Sheet.put, hwrap]
    refine ⟨{ console₁ with col := console₁.col + 1 }, buf', ?_, hv₁, hput ▸ h'⟩
    rw [if_pos (by rw [h.col_eq, h.cols_eq]; exact Nat.not_lt.1 hcol), hnext]
    simp only [Option.bind_eq_bind, Option.bind_some, hdraw]

/-- **A character written is a character of the sheet.** -/
theorem Prints.writeChar (h : Prints info n content console buf s) (hP : Placed info n content)
    (c : Char) :
    ∃ console' buf', console.writeChar buf info c = some (console', buf') ∧
      console'.cursorVisible = console.cursorVisible ∧
        Prints info n content console' buf' (s.writeChar c) := by
  unfold Sheet.writeChar
  by_cases hn : c = '\n'
  · rw [if_pos hn, Console.writeChar, if_neg h.not_empty, if_pos hn]
    exact h.nextLine hP
  rw [if_neg hn]
  by_cases hr : c = '\r'
  · rw [if_pos hr, Console.writeChar, if_neg h.not_empty, if_neg hn, if_pos hr]
    exact ⟨_, buf, rfl, rfl, h.carriageReturn⟩
  rw [if_neg hr]
  by_cases hb : c = '\x08'
  · rw [if_pos hb, hb]
    exact h.backspace hP
  rw [if_neg hb]
  exact h.put hP ⟨hn, hr, hb⟩

/-- A sequence of characters. -/
theorem Prints.run (h : Prints info n content console buf s) (hP : Placed info n content)
    (cs : List Char) :
    ∃ console' buf', console.writeStr buf info cs = some (console', buf') ∧
      console'.cursorVisible = console.cursorVisible ∧
        Prints info n content console' buf' (cs.foldl Sheet.writeChar s) := by
  induction cs generalizing console buf s with
  | nil => exact ⟨console, buf, rfl, rfl, h⟩
  | cons c cs ih =>
    obtain ⟨console₁, buf₁, hw, hv₁, h₁⟩ := h.writeChar hP c
    obtain ⟨console', buf', hws, hv', h'⟩ := ih h₁
    refine ⟨console', buf', ?_, hv'.trans hv₁, h'⟩
    rw [Console.writeStr, List.foldlM_cons]
    simp only [hw, Option.bind_eq_bind, Option.bind_some]
    exact hws

/-! ### The cell of a printed character -/

omit [BasicFonts] in
/-- The cells lie in the content rectangle. -/
theorem contains_of_cellRect {i j : ℕ} (hi : i < content.height / FONT_HEIGHT)
    (hj : j < content.width / FONT_WIDTH) {p : ℕ × ℕ} (hp : (cellRect content i j).Contains p) :
    content.Contains p := by
  have hrow : (i + 1) * 16 ≤ content.height :=
    Nat.le_trans (Nat.mul_le_mul_right _ hi) (Nat.div_mul_le_self _ _)
  have hcol : (j + 1) * 8 ≤ content.width :=
    Nat.le_trans (Nat.mul_le_mul_right _ hj) (Nat.div_mul_le_self _ _)
  simp only [cellRect, Rect.Contains, FONT_WIDTH, FONT_HEIGHT, FONT_SCALE_X, FONT_SCALE_Y] at hp ⊢
  omega

/-- The ink of one glyph lies within that of another one, wherever the two are printed. -/
theorem inkWithin_iff {ch : Char} (x0 y0 : ℕ) :
    InkWithin ch c ↔ ∀ p, GlyphOn x0 y0 ch p → GlyphOn x0 y0 c p := by
  constructor
  · intro h p hp
    obtain ⟨hx, hx', hy, hy', hon⟩ := hp
    refine ⟨hx, hx', hy, hy', h _ ?_ _ ?_ hon⟩
    · simp only [FONT_HEIGHT, FONT_SCALE_Y] at hy' ⊢
      omega
    · simp only [FONT_WIDTH, FONT_SCALE_X] at hx'
      omega
  · intro h k hk i hi hon
    have hrow : (y0 + 2 * k - y0) / FONT_SCALE_Y = k := by
      simp only [FONT_SCALE_Y]
      omega
    have hcol : x0 + i - x0 = i := Nat.add_sub_cancel_left _ _
    have hp : GlyphOn x0 y0 ch (x0 + i, y0 + 2 * k) := by
      refine ⟨Nat.le_add_right _ _, Nat.add_lt_add_left hi _, Nat.le_add_right _ _, ?_, ?_⟩
      · change y0 + 2 * k < y0 + 16
        omega
      · dsimp only
        rwa [hrow, hcol]
    obtain ⟨-, -, -, -, hon'⟩ := h _ hp
    simpa only [hrow, hcol] using hon'

/-- A printed character is the last one of its cell, left of the new position. -/
theorem Prints.color_put (h : Prints info n content console buf (s.put c)) {p : ℕ × ℕ}
    (hp : (cellRect content console.row (console.col - 1)).Contains p) :
    content.Contains p ∧ info.color buf p =
      if InkOn (content.x + (console.col - 1) * FONT_WIDTH) (content.y + console.row * FONT_HEIGHT)
        (s.target ++ [c]) p then .white else .black := by
  have hrow : console.row = s.wrap.row := h.row_eq
  have hcol : console.col - 1 = s.wrap.col := by
    rw [h.col_eq]
    exact Nat.add_sub_cancel _ _
  rw [hrow, hcol] at hp ⊢
  have hcontent := contains_of_cellRect s.wrap.row_lt s.wrap_col_lt hp
  refine ⟨hcontent, ?_⟩
  rw [h.color_eq p hcontent, Sheet.colorAt, (cellOf_eq hcontent).2 hp]
  simp only [s.put_cell_target]

/-- **Printing replaces what the cell showed, exactly if the ink of the characters left there lies
within that of the new one**, after every sequence of characters on a new console. -/
theorem printed_cell_iff (hP : Placed info n content) (hrows : 0 < content.height / FONT_HEIGHT)
    (hcols : 0 < content.width / FONT_WIDTH) (hbuf : buf.size = n) (cs : List Char)
    (hc : Printable c) :
    ∃ console₀ buf₀ console buf₁ console' buf', new buf info content = some (console₀, buf₀) ∧
      cs.foldlM (fun (self, buf) c => self.writeChar buf info c) (console₀, buf₀) =
        some (console, buf₁) ∧
      console.writeChar buf₁ info c = some (console', buf') ∧
      ((∀ p, (cellRect content console'.row (console'.col - 1)).Contains p →
          readPixel buf' info p.1 p.2 = some (glyphColor (content.x + (console'.col - 1) * FONT_WIDTH)
            (content.y + console'.row * FONT_HEIGHT) c p)) ↔
        ∀ ch ∈ (cs.foldl Sheet.writeChar (Sheet.blank hrows hcols)).target, InkWithin ch c) := by
  obtain ⟨console₀, buf₀, hnew, -, h₀⟩ := exists_new_prints hP hrows hcols hbuf
  obtain ⟨console, buf₁, hrun, -, h₁⟩ := h₀.run hP cs
  obtain ⟨console', buf', hput, -, h'⟩ := h₁.put hP hc
  refine ⟨console₀, buf₀, console, buf₁, console', buf', hnew, hrun, hput, ?_⟩
  generalize cs.foldl Sheet.writeChar (Sheet.blank hrows hcols) = s at h'
  generalize hx0 : content.x + (console'.col - 1) * FONT_WIDTH = x0
  generalize hy0 : content.y + console'.row * FONT_HEIGHT = y0
  have hread : ∀ p, (cellRect content console'.row (console'.col - 1)).Contains p →
      readPixel buf' info p.1 p.2 =
        some (if InkOn x0 y0 (s.target ++ [c]) p then .white else .black) := by
    intro p hp
    obtain ⟨hcontent, hcolor⟩ := h'.color_put hp
    rw [FrameBufferInfo.readPixel_of_live hP.fits (h'.size_eq ▸ hP.live hcontent), hcolor, hx0, hy0]
  constructor
  · intro h ch hch
    rw [inkWithin_iff x0 y0]
    intro p hp
    -- the old ink is white, so it is ink of the new character
    have hcell : (cellRect content console'.row (console'.col - 1)).Contains p := by
      rw [cellRect, hx0, hy0]
      exact ⟨hp.1, hp.2.1, hp.2.2.1, hp.2.2.2.1⟩
    have hwhite := h p hcell
    rw [hread p hcell, if_pos (inkOn_concat.2 (.inl ⟨ch, hch, hp⟩)), glyphColor] at hwhite
    by_contra hoff
    rw [if_neg hoff] at hwhite
    cases hwhite
  · intro h p hp
    rw [hread p hp, glyphColor]
    congr 1
    have hold : InkOn x0 y0 s.target p → GlyphOn x0 y0 c p := by
      rintro ⟨ch, hch, hon⟩
      exact (inkWithin_iff x0 y0).1 (h ch hch) p hon
    exact if_congr (by rw [inkOn_concat, or_iff_right_of_imp hold]) rfl rfl

namespace Overprinting

/-- A console of two cells on a screen of its size. -/
def screen : FrameBufferInfo := ⟨16, 16, .rgb, 3, 16⟩

abbrev area : Rect := ⟨0, 0, 16, 16⟩

omit [BasicFonts] in
theorem placed : Placed screen 768 area :=
  ⟨.of_le (by decide) (Nat.le_refl 3) (by decide) (by decide) (by decide), by decide, by decide,
    fun p hp => by
      obtain ⟨-, hx, -, hy⟩ := hp
      simp only [FrameBufferInfo.offset, screen] at hx hy ⊢
      omega⟩

end Overprinting

omit [BasicFonts] in
/-- A blank cell shows the character printed in it, and nothing else. -/
theorem printed_cell_iff_blank :
    let _ := BasicFonts.sample
    ∃ console₀ buf₀ console buf₁ console' buf',
      new (Array.replicate 768 7) Overprinting.screen Overprinting.area = some (console₀, buf₀) ∧
      ['r'].foldlM (fun (self, buf) c => self.writeChar buf Overprinting.screen c) (console₀, buf₀) =
        some (console, buf₁) ∧
      console.writeChar buf₁ Overprinting.screen 'o' = some (console', buf') ∧
      ∀ p, (cellRect Overprinting.area console'.row (console'.col - 1)).Contains p →
        readPixel buf' Overprinting.screen p.1 p.2 = some (glyphColor
          (0 + (console'.col - 1) * FONT_WIDTH) (0 + console'.row * FONT_HEIGHT) 'o' p) := by
  intro _
  obtain ⟨console₀, buf₀, console, buf₁, console', buf', hnew, hrun, hput, hiff⟩ :=
    printed_cell_iff Overprinting.placed (by decide) (by decide)
      (show (Array.replicate 768 7 : Buf).size = 768 by simp) ['r'] (show Printable 'o' by decide)
  exact ⟨console₀, buf₀, console, buf₁, console', buf', hnew, hrun, hput,
    hiff.2 fun _ hch => absurd hch List.not_mem_nil⟩

omit [BasicFonts] in
/-- After a carriage return the ink of the old character stays under the new one. -/
theorem printed_cell_overprinted :
    let _ := BasicFonts.sample
    ∃ console₀ buf₀ console buf₁ console' buf',
      new (Array.replicate 768 0) Overprinting.screen Overprinting.area = some (console₀, buf₀) ∧
      ['r', '\r'].foldlM (fun (self, buf) c => self.writeChar buf Overprinting.screen c)
        (console₀, buf₀) = some (console, buf₁) ∧
      console.writeChar buf₁ Overprinting.screen 'o' = some (console', buf') ∧
      (console'.row, console'.col) = (0, 1) ∧ readPixel buf' Overprinting.screen 0 4 = some .white ∧
      glyphColor 0 0 'o' (0, 4) = .black ∧
      ¬ ∀ p, (cellRect Overprinting.area 0 0).Contains p →
        readPixel buf' Overprinting.screen p.1 p.2 = some (glyphColor 0 0 'o' p) := by
  intro _
  obtain ⟨console₀, buf₀, hnew, -, h₀⟩ := exists_new_prints Overprinting.placed (by decide)
    (by decide) (show (Array.replicate 768 0 : Buf).size = 768 by simp)
  obtain ⟨console, buf₁, hrun, -, h₁⟩ := h₀.run Overprinting.placed ['r', '\r']
  obtain ⟨console', buf', hput, -, h'⟩ := h₁.put Overprinting.placed (show Printable 'o' by decide)
  have hwhite : readPixel buf' Overprinting.screen 0 4 = some .white := by
    rw [FrameBufferInfo.readPixel_of_live Overprinting.placed.fits (p := (0, 4))
      (h'.size_eq ▸ Overprinting.placed.live (by decide)), h'.color_eq (0, 4) (by decide)]
    decide
  have hblack : glyphColor 0 0 'o' (0, 4) = .black := by decide
  refine ⟨console₀, buf₀, console, buf₁, console', buf', hnew, hrun, hput, ?_, hwhite, hblack,
    fun hall => ?_⟩
  · rw [h'.row_eq, h'.col_eq]
    decide
  · have h04 := hall (0, 4) (by decide)
    rw [hblack, hwhite] at h04
    cases h04

end Console

end ROs
